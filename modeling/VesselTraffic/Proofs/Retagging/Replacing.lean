import VesselTraffic.Proofs.Number.IntegerText
import VesselTraffic.Proofs.Packet.Taggings
import VesselTraffic.Proofs.Result
import VesselTraffic.Proofs.Retagging.Merging

/-!
# What replacing writes

Replacing puts a block of its own making in front of the cropped lines of a packet, whether the packet can be interpreted or not. The
block has the time of the packet in seconds and the tags of the template, and the extra tags over both (`replacedValue`); nothing of
the old block gets into it. Replacing goes through exactly if all of these tags are accepted, that of the time with the others.
`transform_replace` describes the packet that comes out, up to the time that is read off it again. That time was written, so it can be
read, and it is taken for seconds as long as it is below `millisFrom`.
-/

namespace VesselTraffic

namespace TagMap

/-- A time that was written in seconds is read back if an integer of its length can be read. It is made milliseconds, except that a
number from `millisFrom` on is taken for milliseconds as it is. -/
theorem timestamp?_of_find? {m : TagMap} {seconds : Int} (h : m.find? timeKey = some (Text.ofInt seconds)) :
    m.timestamp? =
      if Number.Readable seconds then some (if millisFrom ≤ seconds then seconds else seconds * 1000) else none := by
  rw [timestamp?, h]
  simp only [Number.readInteger_ofInt]
  by_cases hr : Number.Readable seconds
  · rw [if_pos hr, if_pos hr]
  · rw [if_neg hr, if_neg hr]

/-- The text of an integer can be added as a value. -/
theorem validValue_ofInt (n : Int) : validValue (Text.ofInt n) = true :=
  validValue_iff.2 ⟨Text.not_mem_ofInt (by decide) (by decide) n, Text.not_mem_ofInt (by decide) (by decide) n⟩

/-- The tag of a time is accepted exactly if the time can be written. -/
theorem accepted_time_iff {n : Int} : Accepted (timeKey, .integer n) ↔ Number.Readable n :=
  ⟨Accepted.writable, fun h => ⟨h, (by decide : validKey timeKey = true), validValue_ofInt n⟩⟩

/-- What is among the entries after tags were inserted is one of the tags or was there before. -/
theorem mem_insertAll {m : TagMap} {tags : List (Text × Text)} {e : Text × Text} (h : e ∈ (m.insertAll tags).entries) :
    e ∈ tags ∨ e ∈ m.entries := by
  induction tags generalizing m with
  | nil => exact Or.inr h
  | cons t rest ih =>
    have hstep : e ∈ ((m.insert t.1 t.2).insertAll rest).entries := h
    rcases ih hstep with h | h
    · exact Or.inl (List.mem_cons_of_mem t h)
    · rcases mem_write h with rfl | h
      · exact Or.inl List.mem_cons_self
      · exact Or.inr h

end TagMap

namespace Retagging

open TagMap Packet

/-- The tags of a template besides its time, then the extra ones. -/
def otherTags (template : Tagging) (extras : TagMap) : List (Text × TagValue) :=
  ({ template with timestamp := none } : Tagging).tags ++ extras.given

/-- The tags that replacing writes, in order: the time in seconds, then the others. -/
def replacedTags (time : Int) (template : Tagging) (extras : TagMap) : List (Text × TagValue) :=
  (timeKey, .integer (time / 1000)) :: otherTags template extras

/-- The block that replacing makes. -/
def replacedBlock (time : Int) (template : Tagging) (extras : TagMap) : TagMap :=
  TagMap.empty.insertAll ((replacedTags time template extras).map spell)

/-- The value of a key after replacing: the extra one, else the time of the packet in seconds for its key, else that of the template. -/
def replacedValue (time : Int) (template : Tagging) (extras : TagMap) (key : Text) : Option Text :=
  (extras.find? key).or (if key = timeKey then some (Text.ofInt (time / 1000)) else template.spelled.lookup key)

/-- The tags that replacing writes are those of the template with another time, and the extra ones. -/
theorem replacedTags_eq (time : Int) (template : Tagging) (extras : TagMap) :
    replacedTags time template extras = ({ template with timestamp := some time } : Tagging).tags ++ extras.given := rfl

/-- The values of the block that replacing makes. -/
theorem find?_replacedBlock (time : Int) (template : Tagging) (extras : TagMap) (key : Text) :
    (replacedBlock time template extras).find? key = replacedValue time template extras key := by
  have htags : ({ template with timestamp := some time } : Tagging).spelled.lookup key =
      if key = timeKey then some (Text.ofInt (time / 1000)) else template.spelled.lookup key := by
    rw [Tagging.lookup_spelled, Tagging.lookup_spelled, Tagging.lookup_tags, Tagging.lookup_tags]
    by_cases hk : key = timeKey
    · rw [if_pos hk, if_pos hk]
      rfl
    · rw [if_neg hk, if_neg hk, if_neg hk]
  rw [replacedBlock, replacedTags_eq, Tagging.map_spell_append_given, insertAll_append, find?_insertAll _ extras.nodup,
    find?_insertAll _ (Tagging.nodup_keys_spelled _), find?_empty, Option.or_none, htags]
  rfl

/-- The tags besides the time are spelled as those of the template and the extra ones are. -/
theorem map_spell_otherTags_subset (template : Tagging) (extras : TagMap) :
    (otherTags template extras).map spell ⊆ template.spelled ++ extras.entries := by
  intro t ht
  rw [otherTags, Tagging.map_spell_append_given] at ht
  rcases List.mem_append.1 ht with h | h
  · refine List.mem_append_left _ (List.map_subset spell ?_ h)
    intro u hu
    simp only [Tagging.tags, Tagging.tag, List.append_assoc, List.nil_append] at hu ⊢
    exact List.mem_append_right _ hu
  · exact List.mem_append_right _ h

/-- Finding out what is to be written is one writing of tags. -/
theorem replacement_eq (p : Packet) (template : Tagging) (extras : TagMap) :
    replacement p template extras = (TagMap.empty.addAll (replacedTags p.timestamp template extras)).complete := by
  unfold replacement Tagging.toTags Tagging.writeOver
  rw [replacedTags_eq, complete_addAll_append]
  simp only [addExtras_none]

/-- Replacing writes its tags, all of which have to be accepted, in front of the cropped lines. -/
theorem replace_eq_ok_iff {p : Packet} {template : Tagging} {extras : TagMap} {r : Retagging} :
    replace p template extras = .ok r ↔
      (∀ t ∈ replacedTags p.timestamp template extras, Accepted t) ∧
        r = .retagged ⟨withBlock (replacedBlock p.timestamp template extras) (Sentence.crop true p.lines), p.received⟩ := by
  rw [replace, replacement_eq, map_eq_ok_iff]
  constructor
  · rintro ⟨m, hm, rfl⟩
    obtain ⟨haccepted, rfl⟩ := complete_addAll_eq_ok_iff.1 hm
    exact ⟨haccepted, rfl⟩
  · rintro ⟨haccepted, rfl⟩
    exact ⟨_, complete_addAll_eq_ok_iff.2 ⟨haccepted, rfl⟩, rfl⟩

/-- A block that replacing makes has a time, so it is not left out. -/
theorem isEmpty_replacedBlock (time : Int) (template : Tagging) (extras : TagMap) :
    (replacedBlock time template extras).isEmpty = false := by
  rw [Bool.eq_false_iff]
  intro h
  have htime := eq_empty_iff.1 (isEmpty_eq_true_iff.1 h) timeKey
  rw [find?_replacedBlock, replacedValue, if_pos rfl, Option.or_eq_none_iff] at htime
  cases htime.2

/-- A block of accepted tags is legible. -/
theorem legible_replacedBlock {time : Int} {template : Tagging} {extras : TagMap}
    (h : ∀ t ∈ replacedTags time template extras, Accepted t) : (replacedBlock time template extras).Legible :=
  legible_empty.insertAll_of_accepted h

/-- The time of a packet can be written in seconds if replacing accepts all tags. -/
theorem readable_of_accepted {time : Int} {template : Tagging} {extras : TagMap}
    (h : ∀ t ∈ replacedTags time template extras, Accepted t) : Number.Readable (time / 1000) :=
  accepted_time_iff.1 (h _ List.mem_cons_self)

/-- A packet that has a frame behind a replaced block is dated by the time of the block, unless an extra tag overrides it. -/
theorem timestamp_of_replaced {q : Packet} {g : Frame} {time : Int} {template : Tagging} {extras : TagMap} (hg : q.frame? = some g)
    (ht : g.tags = some (replacedBlock time template extras)) (he : extras.find? timeKey = none) (hsmall : time < pow10 14)
    (hr : Number.Readable (time / 1000)) : q.timestamp = time / 1000 * 1000 := by
  have hvalue := find?_replacedBlock time template extras timeKey
  rw [replacedValue, he, if_pos rfl, Option.none_or] at hvalue
  have hseconds : ¬millisFrom ≤ time / 1000 := by
    have hmillis : millisFrom = 100000000000 := rfl
    have hlimit : (pow10 14 : Int) = 100000000000000 := rfl
    omega
  rw [Packet.timestamp, tags?_of_frame? hg, ht, Option.bind_some, timestamp?_of_find? hvalue, if_neg hseconds, if_pos hr]
  rfl

/-- The packet `q` with the block `m` that replacing makes of the packet `p`. Its lines are the block and the cropped lines, it keeps
the time of its reception, and if it has a frame the block is read back, with the time rounded down to seconds. The last goes for
times before the year 5138, for which the seconds are not taken for milliseconds. -/
structure IsReplacement (p : Packet) (template : Tagging) (extras m : TagMap) (q : Packet) : Prop where
  received : q.received = p.received
  lines : q.lines = m.encode :: Sentence.crop true p.lines
  value : ∀ key, m.find? key = replacedValue p.timestamp template extras key
  read : ∀ g, q.frame? = some g → g.tags = some m
  time : ∀ g, q.frame? = some g → extras.find? timeKey = none → p.timestamp < pow10 14 →
    q.timestamp = p.timestamp / 1000 * 1000

/-- A block of accepted tags without line feeds is what replacing should make. -/
theorem isReplacement {p : Packet} {template : Tagging} {extras m : TagMap} (hm : m = replacedBlock p.timestamp template extras)
    (haccepted : ∀ t ∈ replacedTags p.timestamp template extras, Accepted t)
    (hline : ∀ t ∈ replacedTags p.timestamp template extras, '\n' ∉ (spell t).1 ∧ '\n' ∉ (spell t).2) :
    IsReplacement p template extras m ⟨withBlock m (Sentence.crop true p.lines), p.received⟩ := by
  have hblock : m.isEmpty = false := hm ▸ isEmpty_replacedBlock p.timestamp template extras
  have hlegible : m.Legible := hm ▸ legible_replacedBlock haccepted
  have hwhole : '\n' ∉ m.encode := by
    rw [mem_encode_iff (by decide), hm]
    rintro ⟨t, ht, hc⟩
    obtain ⟨u, hu, rfl⟩ := List.mem_map.1 ((mem_insertAll ht).resolve_right List.not_mem_nil)
    exact hc.elim (hline u hu).1 (hline u hu).2
  have hread : ∀ g, (Packet.mk (withBlock m (Sentence.crop true p.lines)) p.received).frame? = some g → g.tags = some m := by
    intro g hg
    rw [tags_of_frame?_withBlock hlegible hg, hblock]
    rfl
  refine { received := rfl, lines := ?_, value := hm ▸ find?_replacedBlock _ _ _, read := hread, time := ?_ }
  · rw [lines_withBlock hwhole, hblock]
    rfl
  · intro g hg he hsmall
    exact timestamp_of_replaced hg (hm ▸ hread g hg) he hsmall (readable_of_accepted haccepted)

/-- Replacing always makes a packet, with or without a frame before, if all tags that it writes are accepted, that of the time among
them, and none of the template and of the extra ones has a line feed. -/
theorem transform_replace {template : Tagging} {standing : TagMap} {i : Intake} {given : Option TagMap}
    (haccepted : ∀ t ∈ replacedTags i.packet.timestamp template (given.getD standing), Accepted t)
    (hline : ∀ t ∈ template.spelled ++ (given.getD standing).entries, '\n' ∉ t.1 ∧ '\n' ∉ t.2) :
    ∃ m q, (Retagger.transform ⟨.policy .replace, template, standing⟩ i given).result = .ok (.retagged q) ∧
      IsReplacement i.packet template (given.getD standing) m q := by
  have hline' : ∀ t ∈ replacedTags i.packet.timestamp template (given.getD standing),
      '\n' ∉ (spell t).1 ∧ '\n' ∉ (spell t).2 :=
    List.forall_mem_cons.2 ⟨⟨(by decide : '\n' ∉ timeKey), Text.not_mem_ofInt (by decide) (by decide) _⟩,
      fun t ht => hline _ (map_spell_otherTags_subset _ _ (List.mem_map_of_mem ht))⟩
  exact ⟨_, _, mapError_eq_ok_iff.2 (replace_eq_ok_iff.2 ⟨haccepted, rfl⟩), isReplacement rfl haccepted hline'⟩

/-- The block `c:5` of a packet that was received at time zero is replaced by the source of a template and the time of the old block,
not that of the template. -/
theorem transform_replace_own_time :
    (Retagger.transform ⟨.policy .replace, ⟨some 7000, some ['s'], none, none, none⟩, TagMap.empty⟩
        (.fresh ⟨"\\c:5*6C\\!AIVDM,1,1,,A,0,0*26".toList, 0⟩) none).result =
      .ok (.retagged ⟨"\\c:5,si:s*13\\\r\n!AIVDM,1,1,,A,0,0*26".toList, 0⟩) ∧
      (Packet.mk "\\c:5,si:s*13\\\r\n!AIVDM,1,1,,A,0,0*26".toList 0).timestamp = 5000 := by
  obtain ⟨m, q, hq, hreplaced⟩ := @transform_replace ⟨some 7000, some ['s'], none, none, none⟩ TagMap.empty
    (.fresh ⟨"\\c:5*6C\\!AIVDM,1,1,,A,0,0*26".toList, 0⟩) none (by decide +kernel) (by decide)
  have hout : (Retagger.transform ⟨.policy .replace, ⟨some 7000, some ['s'], none, none, none⟩, TagMap.empty⟩
      (.fresh ⟨"\\c:5*6C\\!AIVDM,1,1,,A,0,0*26".toList, 0⟩) none).result =
      .ok (.retagged ⟨"\\c:5,si:s*13\\\r\n!AIVDM,1,1,,A,0,0*26".toList, 0⟩) := by decide +kernel
  rw [hout] at hq
  cases hq
  have hframe : (Packet.mk "\\c:5,si:s*13\\\r\n!AIVDM,1,1,,A,0,0*26".toList 0).frame? =
      some ⟨["!AIVDM,1,1,,A,0,0*26".toList], some ((TagMap.empty.insert ['c'] ['5']).insert ['s', 'i'] ['s'])⟩ := by decide +kernel
  exact ⟨hout, hreplaced.time _ hframe rfl (by decide +kernel)⟩

end Retagging
end VesselTraffic
