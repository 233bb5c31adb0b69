import VesselTraffic.Proofs.Packet.Taggings
import VesselTraffic.Proofs.Result
import VesselTraffic.Proofs.Retagging.Merging
import VesselTraffic.Proofs.Retagging.Sentences

/-!
# What prepending writes

Prepending writes the tags that a packet lacks (`lackingTags`) into one block on a line in front of its text. When both are read
again, the own groups come behind the block, so the own tags win (`prependedValue`): whatever is prepended, nothing of the packet is
overridden (`transform_prepend`).

What a packet lacks is found out in two ways. For the extra tags it is a matter of the keys of its block, for the template one of the
fields of the tagging that is read off the block, and a time or a base station that is no integer is a key without a field. Such a
tag is prepended although the block has it, to no effect, and again every time. `transform_prepend_again_iff` says that nothing else
stands in the way of prepending only what is lacking, and only once; `transform_prepend_again_false` is a packet that grows with
every run.
-/

namespace VesselTraffic

namespace TagMap

/-- Tags make the empty map exactly if there are none. -/
theorem insertAll_empty_eq_empty_iff {tags : List (Text × Text)} : empty.insertAll tags = empty ↔ tags = [] := by
  constructor
  · intro h
    have hkeys : (tags.map Prod.fst).eraseDups = [] := by
      rw [← keys_insertAll_empty, h]
      rfl
    cases tags with
    | nil => rfl
    | cons t rest =>
      rw [List.map_cons, List.eraseDups_cons] at hkeys
      cases hkeys
  · rintro rfl
    rfl

/-- A block that may not be there has the values of the empty one in its stead. -/
theorem find?_getD (own : Option TagMap) (key : Text) : (own.getD empty).find? key = own.bind (·.find? key) := by
  cases own <;> rfl

end TagMap

namespace Retagging

open TagMap Packet

/-- The tags that a packet lacks: those of the template whose fields its tagging has not, and the extra ones whose keys its block has
not. -/
def lackingTags (p : Packet) (template : Tagging) (extras : TagMap) : List (Text × TagValue) :=
  ((Tagging.ofRead p.tags?).missingFrom template).tags ++ extras.given.filter fun t => !(p.tags?.getD TagMap.empty).contains t.1

/-- The block of the tags that a packet lacks. -/
def lackingBlock (p : Packet) (template : Tagging) (extras : TagMap) : TagMap :=
  TagMap.empty.insertAll ((lackingTags p template extras).map spell)

/-- The value of a key after prepending: the packet's own one, else the extra one, else that of the template. -/
def prependedValue (own : Option TagMap) (template : Tagging) (extras : TagMap) (key : Text) : Option Text :=
  (own.bind (·.find? key)).or ((extras.find? key).or (template.spelled.lookup key))

/-- Finding out what a packet lacks is one writing of tags. -/
theorem lacking_eq (p : Packet) (template : Tagging) (extras : TagMap) :
    lacking p template extras = (TagMap.empty.addAll (lackingTags p template extras)).complete := by
  unfold lacking lackingTags Tagging.toTags Tagging.writeOver
  rw [Tagging.ofPacket_eq, complete_addAll_append]
  cases p.tags? with
  | none => rfl
  | some m => rfl

/-- The tags that a packet lacks are found out exactly if all of them are accepted. -/
theorem lacking_eq_ok_iff {p : Packet} {template : Tagging} {extras m : TagMap} :
    lacking p template extras = .ok m ↔
      (∀ t ∈ lackingTags p template extras, Accepted t) ∧ m = lackingBlock p template extras := by
  rw [lacking_eq, complete_addAll_eq_ok_iff, lackingBlock]

/-- The block of what a packet lacks is empty exactly if it lacks nothing. -/
theorem lackingBlock_eq_empty_iff {p : Packet} {template : Tagging} {extras : TagMap} :
    lackingBlock p template extras = TagMap.empty ↔ lackingTags p template extras = [] := by
  rw [lackingBlock, insertAll_empty_eq_empty_iff, List.map_eq_nil_iff]

/-- A block of accepted tags is legible. -/
theorem legible_lackingBlock {p : Packet} {template : Tagging} {extras : TagMap}
    (h : ∀ t ∈ lackingTags p template extras, Accepted t) : (lackingBlock p template extras).Legible :=
  legible_empty.insertAll_of_accepted h

/-- The value of a key that a packet lacks: the extra one unless the block has the key, else that of the template unless the tagging
has the field. -/
theorem find?_lackingBlock (p : Packet) (template : Tagging) (extras : TagMap) (key : Text) :
    (lackingBlock p template extras).find? key =
      (if (p.tags?.bind (·.find? key)).isSome then none else extras.find? key).or
        (if ((Tagging.ofRead p.tags?).tags.lookup key).isSome then none else template.spelled.lookup key) := by
  have hextras : ((extras.entries.filter fun t => !(p.tags?.getD TagMap.empty).contains t.1).map Prod.fst).Nodup :=
    (List.filter_sublist.map Prod.fst).nodup extras.nodup
  have hspelled : (lackingTags p template extras).map spell = ((Tagging.ofRead p.tags?).missingFrom template).spelled ++
      extras.entries.filter fun t => !(p.tags?.getD TagMap.empty).contains t.1 := by
    rw [lackingTags, List.map_append, given_eq, filter_ofTexts fun k => !(p.tags?.getD TagMap.empty).contains k, map_spell_ofTexts]
    rfl
  rw [lackingBlock, hspelled, insertAll_append, find?_insertAll _ hextras, find?_insertAll _ (Tagging.nodup_keys_spelled _),
    find?_empty, Option.or_none, Tagging.lookup_spelled, Tagging.lookup_missingFrom, Tagging.lookup_spelled,
    KeyedList.lookup_filter_key (fun a => !(p.tags?.getD TagMap.empty).contains a), contains_eq, find?_getD]
  cases (p.tags?.bind (·.find? key)).isSome <;> cases ((Tagging.ofRead p.tags?).tags.lookup key).isSome <;> rfl

/-- A key that the tagging of a packet has is one that its block has. -/
theorem lookup_ofRead_of_none {own : Option TagMap} {key : Text} (h : own.bind (·.find? key) = none) :
    (Tagging.ofRead own).tags.lookup key = none := by
  refine Classical.byContradiction fun hne => hne ?_
  exact (Tagging.lookup_ofRead_eq_none_iff own (Tagging.mem_wellKnownKeys hne)).2 (Or.inl h)

/-- The packet's own value, or else the one that it lacks. -/
theorem own_or_lacking (p : Packet) (template : Tagging) (extras : TagMap) (key : Text) :
    (p.tags?.bind (·.find? key)).or ((lackingBlock p template extras).find? key) =
      prependedValue p.tags? template extras key := by
  rw [find?_lackingBlock, prependedValue]
  cases hown : p.tags?.bind (·.find? key) with
  | some v => rfl
  | none =>
    rw [lookup_ofRead_of_none hown]
    rfl

/-- A packet behind a block has its own values, and those of the block for the keys that it has not. -/
theorem find?_of_prepended {p : Packet} {f g : Frame} (hf : p.frame? = some f) {m : TagMap} (hm : m.Legible)
    (hg : (Packet.mk (m.encode ++ Sentence.lineBreak ++ p.raw) p.received).frame? = some g) (key : Text) :
    g.tags.bind (·.find? key) = (f.tags.bind (·.find? key)).or (m.find? key) := by
  obtain ⟨-, -, hparse⟩ := frame?_eq_some_iff.1 hf
  obtain ⟨tags, hspell, hown⟩ := spellAll_of_parse hparse
  have hread : m.readGroups ((Packet.mk p.raw p.received).lines.flatMap groups) = .ok (m.insertAll tags) :=
    readGroups_of_spellAll hspell m
  have hwhole : '\n' ∉ m.encode := by
    intro hl
    rw [List.append_assoc, frame?_lineFeed hm hl] at hg
    cases hg
  rw [frame?_encode hm hwhole, hread] at hg
  rw [tags_of_frameOf hg, ← find?_getD f.tags, hown, find?_insertAll_reverse TagMap.empty, find?_empty, Option.or_none]
  exact find?_insertAll_reverse m tags key

/-- Prepending writes the tags that a packet lacks, all of which have to be accepted, and leaves the packet alone if there are none. -/
theorem prepend_eq_ok_iff {p : Packet} {template : Tagging} {extras : TagMap} {r : Retagging} :
    prepend p template extras = .ok r ↔
      (∀ t ∈ lackingTags p template extras, Accepted t) ∧
        r = written .prependMissing p (lackingBlock p template extras) := by
  have hmap : prepend p template extras = (lacking p template extras).map (written .prependMissing p) := rfl
  rw [hmap, map_eq_ok_iff]
  constructor
  · rintro ⟨m, hm, rfl⟩
    obtain ⟨haccepted, rfl⟩ := lacking_eq_ok_iff.1 hm
    exact ⟨haccepted, rfl⟩
  · rintro ⟨haccepted, rfl⟩
    exact ⟨_, lacking_eq_ok_iff.2 ⟨haccepted, rfl⟩, rfl⟩

/-- Prepending leaves a packet alone exactly if it lacks nothing. -/
theorem prepend_eq_unchanged_iff {p : Packet} {template : Tagging} {extras : TagMap} :
    prepend p template extras = .ok .unchanged ↔ lackingTags p template extras = [] := by
  rw [prepend_eq_ok_iff, ← lackingBlock_eq_empty_iff, ← isEmpty_eq_true_iff]
  constructor
  · rintro ⟨-, hr⟩
    rw [written] at hr
    split at hr
    · assumption
    · cases hr
  · intro h
    rw [written, if_pos h]
    rw [isEmpty_eq_true_iff, lackingBlock_eq_empty_iff] at h
    refine ⟨?_, rfl⟩
    rw [h]
    exact fun t ht => absurd ht List.not_mem_nil

/-- The values of a packet that something may have been prepended to. -/
theorem find?_of_prepend {p q : Packet} {f g : Frame} {template : Tagging} {extras : TagMap} {r : Retagging}
    (hf : p.frame? = some f) (h : prepend p template extras = .ok r) (hq : r.packet? p = some q) (hg : q.frame? = some g)
    (key : Text) : g.tags.bind (·.find? key) = prependedValue f.tags template extras key := by
  obtain ⟨haccepted, rfl⟩ := prepend_eq_ok_iff.1 h
  have hvalue := own_or_lacking p template extras key
  rw [tags?_of_frame? hf] at hvalue
  rw [← hvalue]
  rw [written] at hq
  split at hq
  · rename_i hempty
    cases hq
    rw [hf] at hg
    rw [isEmpty_eq_true_iff.1 hempty, ← Option.some.inj hg, find?_empty, Option.or_none]
  · cases hq
    exact find?_of_prepended hf (legible_lackingBlock haccepted) hg key

/-- The keys of what a packet lacks: those of the extra tags and of the template that its block has not, and those of the template
whose tags are garbled. -/
theorem contains_lackingBlock_iff (p : Packet) (template : Tagging) (extras : TagMap) (key : Text) :
    (lackingBlock p template extras).contains key = true ↔
      p.tags?.bind (·.find? key) = none ∧ (extras.find? key ≠ none ∨ template.tags.lookup key ≠ none) ∨
        template.tags.lookup key ≠ none ∧ Tagging.Garbled p.tags? key := by
  rw [contains_eq, find?_lackingBlock, Tagging.lookup_spelled]
  by_cases ht : template.tags.lookup key = none
  · cases p.tags?.bind (·.find? key) <;> simp [ht, Option.isSome_iff_ne_none]
  · have hread := Tagging.lookup_ofRead_eq_none_iff p.tags? (Tagging.mem_wellKnownKeys ht)
    cases hown : p.tags?.bind (·.find? key) with
    | none => simp [lookup_ofRead_of_none hown, ht, Option.isSome_iff_ne_none]
    | some v =>
      rw [hown] at hread
      cases hfield : (Tagging.ofRead p.tags?).tags.lookup key with
      | none => simp [ht, (hread.1 hfield).resolve_left (by simp), Option.isSome_iff_ne_none]
      | some w =>
        have hclear : ¬Tagging.Garbled p.tags? key := fun hg => by simpa [hfield] using hread.2 (Or.inr hg)
        simp [hclear]

/-- A key that a packet lacks is one that its block has exactly if the tag is garbled and the template sets it. -/
theorem exists_own_lacking_iff (p : Packet) (template : Tagging) (extras : TagMap) :
    (∃ key, (lackingBlock p template extras).contains key = true ∧ p.tags?.bind (·.find? key) ≠ none) ↔
      Tagging.Mistaken template p.tags? := by
  refine exists_congr fun key => ?_
  rw [contains_lackingBlock_iff]
  constructor
  · rintro ⟨⟨hnone, -⟩ | h, hown⟩
    · exact absurd hnone hown
    · exact h
  · rintro ⟨ht, hg⟩
    exact ⟨Or.inr ⟨ht, hg⟩, hg.present⟩

/-- A packet lacks nothing exactly if its block has all extra keys and all keys that the template sets, none of them garbled. -/
theorem lackingTags_eq_nil_iff {p : Packet} {template : Tagging} {extras : TagMap} :
    lackingTags p template extras = [] ↔
      (∀ key, extras.find? key ≠ none → p.tags?.bind (·.find? key) ≠ none) ∧
        ∀ key, template.tags.lookup key ≠ none → p.tags?.bind (·.find? key) ≠ none ∧ ¬Tagging.Garbled p.tags? key := by
  rw [← lackingBlock_eq_empty_iff, eq_empty_iff, ← forall_and]
  refine forall_congr' fun key => ?_
  rw [← Option.not_isSome_iff_eq_none, ← contains_eq, contains_lackingBlock_iff]
  generalize p.tags?.bind (·.find? key) = own, extras.find? key = extra, template.tags.lookup key = wanted,
    Tagging.Garbled p.tags? key = garbled
  grind

/-- Prepending fails exactly if a tag that the packet lacks is not accepted. -/
theorem exists_prepend_eq_error_iff {p : Packet} {template : Tagging} {extras : TagMap} :
    (∃ e, prepend p template extras = .error e) ↔ ∃ t ∈ lackingTags p template extras, ¬Accepted t := by
  constructor
  · rintro ⟨e, he⟩
    refine Classical.byContradiction fun hv => ?_
    have hall : ∀ t ∈ lackingTags p template extras, Accepted t := fun t ht => Classical.byContradiction fun hn => hv ⟨t, ht, hn⟩
    rw [prepend_eq_ok_iff.2 ⟨hall, rfl⟩] at he
    cases he
  · rintro ⟨t, ht, hn⟩
    cases hp : prepend p template extras with
    | error e => exact ⟨e, rfl⟩
    | ok r => exact absurd ((prepend_eq_ok_iff.1 hp).1 t ht) hn

/-- What becomes of a packet with a frame that something is prepended to. It fails exactly if a tag that the packet lacks is not
accepted.
Else the packet is left alone, or one block of tags is put on a line in front of its text. If it still has a frame, every key has the
packet's own value, else the extra one, else that of the template; so no own tag is overridden, garbled ones included. -/
theorem transform_prepend {template : Tagging} {standing : TagMap} {i : Intake} {given : Option TagMap} {f : Frame}
    (hf : i.packet.frame? = some f) :
    let result := (Retagger.transform ⟨.policy .prependMissing, template, standing⟩ i given).result
    let extras := given.getD standing
    ((∃ e, result = .error e) ↔ ∃ t ∈ lackingTags i.packet template extras, ¬Accepted t) ∧
      ∀ r, result = .ok r →
        (r = .unchanged ∨ ∃ m : TagMap, m.Legible ∧ m ≠ TagMap.empty ∧
          r = .retagged ⟨m.encode ++ Sentence.lineBreak ++ i.packet.raw, i.packet.received⟩) ∧
        ∀ q g, r.packet? i.packet = some q → q.frame? = some g →
          ∀ key, g.tags.bind (·.find? key) = prependedValue f.tags template extras key := by
  intro result extras
  refine ⟨exists_mapError_eq_error_iff.trans exists_prepend_eq_error_iff, ?_⟩
  intro r hr
  have hp : prepend i.packet template extras = .ok r := mapError_eq_ok_iff.1 hr
  refine ⟨?_, fun q g hq hg => find?_of_prepend hf hp hq hg⟩
  obtain ⟨haccepted, rfl⟩ := prepend_eq_ok_iff.1 hp
  rw [written]
  split
  · exact Or.inl rfl
  · rename_i hne
    exact Or.inr ⟨_, legible_lackingBlock haccepted, fun e => hne (isEmpty_eq_true_iff.2 e), rfl⟩

/-- To a packet with the tag `c:x`, whose time is no integer, the time of a template is prepended, and the own tag stays. -/
theorem transform_prepend_garbled_time :
    (Packet.mk "\\c:0*69\\\r\n\\c:x*21\\!AIVDM,1,1,,A,0,0*26".toList 0).frame? =
        some ⟨["!AIVDM,1,1,,A,0,0*26".toList], some (TagMap.empty.insert ['c'] ['x'])⟩ ∧
      ∀ key, (some (TagMap.empty.insert ['c'] ['x'])).bind (·.find? key) =
        prependedValue (some (TagMap.empty.insert ['c'] ['x'])) ⟨some 0, none, none, none, none⟩ TagMap.empty key := by
  have hg : (Packet.mk "\\c:0*69\\\r\n\\c:x*21\\!AIVDM,1,1,,A,0,0*26".toList 0).frame? =
      some ⟨["!AIVDM,1,1,,A,0,0*26".toList], some (TagMap.empty.insert ['c'] ['x'])⟩ := by decide +kernel
  have h := @transform_prepend ⟨some 0, none, none, none, none⟩ TagMap.empty
    (.fresh ⟨"\\c:x*21\\!AIVDM,1,1,,A,0,0*26".toList, 0⟩) none
    ⟨["!AIVDM,1,1,,A,0,0*26".toList], some (TagMap.empty.insert ['c'] ['x'])⟩ (by decide +kernel)
  exact ⟨hg, (h.2 (.retagged ⟨"\\c:0*69\\\r\n\\c:x*21\\!AIVDM,1,1,,A,0,0*26".toList, 0⟩) (by decide +kernel)).2 _ _ rfl hg⟩

/-- A block was prepended to a packet exactly if it is that of the tags that the packet lacks, and there are some. -/
theorem retagged_eq_written_iff {p : Packet} {m m' : TagMap} (hm : m.Legible) (hm' : m'.Legible) :
    .retagged ⟨m.encode ++ Sentence.lineBreak ++ p.raw, p.received⟩ = written .prependMissing p m' ↔ m = m' ∧ m' ≠ TagMap.empty := by
  rw [written]
  split
  · rename_i he
    simp [isEmpty_eq_true_iff.1 he]
  · rename_i he
    rw [isEmpty_eq_true_iff] at he
    constructor
    · intro h
      have hraw : m.encode ++ (Sentence.lineBreak ++ p.raw) = m'.encode ++ (Sentence.lineBreak ++ p.raw) := by
        simpa using h
      exact ⟨hm.encode_inj hm' (List.append_cancel_right hraw), he⟩
    · rintro ⟨rfl, -⟩
      rfl

/-- Prepending twice. No key of a prepended block is one of the packet's own block, and the packet that comes out is left alone the
next time, as long as no well-known tag that the template sets is garbled: neither among the packet's own tags nor, the second time,
among those that came out. Then the time or the base station of the template is prepended although the block has the key, and it is
prepended every time, for the own value still wins. -/
theorem transform_prepend_again_iff {template : Tagging} {standing : TagMap} {i again : Intake} {given : Option TagMap} {f g : Frame}
    {r : Retagging} (hf : i.packet.frame? = some f)
    (h : (Retagger.transform ⟨.policy .prependMissing, template, standing⟩ i given).result = .ok r)
    (hq : r.packet? i.packet = some again.packet) (hg : again.packet.frame? = some g) :
    ((∀ m : TagMap, m.Legible → r = .retagged ⟨m.encode ++ Sentence.lineBreak ++ i.packet.raw, i.packet.received⟩ →
        ∀ key, m.contains key = true → f.tags.bind (·.find? key) = none) ↔
      ¬Tagging.Mistaken template f.tags) ∧
      ((Retagger.transform ⟨.policy .prependMissing, template, standing⟩ again given).result = .ok .unchanged ↔
        ¬Tagging.Mistaken template g.tags) := by
  have hp : prepend i.packet template (given.getD standing) = .ok r := mapError_eq_ok_iff.1 h
  obtain ⟨haccepted, hr⟩ := prepend_eq_ok_iff.1 hp
  have hlegible := legible_lackingBlock haccepted
  constructor
  · rw [← tags?_of_frame? hf, ← exists_own_lacking_iff i.packet template (given.getD standing)]
    constructor
    · rintro hnew ⟨key, hk, hown⟩
      refine hown (hnew _ hlegible (hr.trans ((retagged_eq_written_iff hlegible hlegible).2 ⟨rfl, ?_⟩).symm) key hk)
      intro he
      rw [he] at hk
      cases hk
    · intro hnew m hm hm' key hk
      obtain ⟨rfl, -⟩ := (retagged_eq_written_iff hm hlegible).1 (hm'.symm.trans hr)
      exact Classical.byContradiction fun hown => hnew ⟨key, hk, hown⟩
  · have hagain : (Retagger.transform ⟨.policy .prependMissing, template, standing⟩ again given).result = .ok .unchanged ↔
        prepend again.packet template (given.getD standing) = .ok .unchanged := mapError_eq_ok_iff
    rw [hagain, prepend_eq_unchanged_iff, lackingTags_eq_nil_iff, tags?_of_frame? hg]
    constructor
    · rintro ⟨-, hwell⟩ ⟨key, ht, hgarbled⟩
      exact (hwell key ht).2 hgarbled
    · intro hwell
      refine ⟨fun key hx => ?_, fun key ht => ⟨?_, fun hgarbled => hwell ⟨key, ht, hgarbled⟩⟩⟩
      · rw [find?_of_prepend hf hp hq hg, prependedValue]
        simp [hx]
      · rw [find?_of_prepend hf hp hq hg, prependedValue, Tagging.lookup_spelled]
        simp [ht]

/-- A packet that has the time of a template, `c:5`: the source alone is prepended, and only once. -/
theorem transform_prepend_again_readable_time :
    (∀ m : TagMap, m.Legible →
        Retagging.retagged ⟨"\\si:s*53\\\r\n\\c:5*6C\\!AIVDM,1,1,,A,0,0*26".toList, 0⟩ =
          .retagged ⟨m.encode ++ Sentence.lineBreak ++ "\\c:5*6C\\!AIVDM,1,1,,A,0,0*26".toList, 0⟩ →
        ∀ key, m.contains key = true → (some (TagMap.empty.insert ['c'] ['5'])).bind (·.find? key) = none) ∧
      (Retagger.transform ⟨.policy .prependMissing, ⟨some 0, some ['s'], none, none, none⟩, TagMap.empty⟩
        (.fresh ⟨"\\si:s*53\\\r\n\\c:5*6C\\!AIVDM,1,1,,A,0,0*26".toList, 0⟩) none).result = .ok .unchanged := by
  have h := @transform_prepend_again_iff ⟨some 0, some ['s'], none, none, none⟩ TagMap.empty
    (.fresh ⟨"\\c:5*6C\\!AIVDM,1,1,,A,0,0*26".toList, 0⟩)
    (.fresh ⟨"\\si:s*53\\\r\n\\c:5*6C\\!AIVDM,1,1,,A,0,0*26".toList, 0⟩) none
    ⟨["!AIVDM,1,1,,A,0,0*26".toList], some (TagMap.empty.insert ['c'] ['5'])⟩
    ⟨["!AIVDM,1,1,,A,0,0*26".toList], some ((TagMap.empty.insert ['s', 'i'] ['s']).insert ['c'] ['5'])⟩
    (.retagged ⟨"\\si:s*53\\\r\n\\c:5*6C\\!AIVDM,1,1,,A,0,0*26".toList, 0⟩)
    (by decide +kernel) (by decide +kernel) rfl (by decide +kernel)
  exact ⟨h.1.2 (by decide +kernel), h.2.2 (by decide +kernel)⟩

/-- Prepending does not always add only what a packet lacks, and is not idempotent: to a packet with the tag `c:x` the time of a
template is prepended although the block has the key, and it is prepended again. -/
theorem transform_prepend_again_false :
    ¬∀ (template : Tagging) (standing : TagMap) (i again : Intake) (given : Option TagMap) (f g : Frame) (r : Retagging),
      i.packet.frame? = some f →
        (Retagger.transform ⟨.policy .prependMissing, template, standing⟩ i given).result = .ok r →
          r.packet? i.packet = some again.packet → again.packet.frame? = some g →
            (∀ m : TagMap, m.Legible → r = .retagged ⟨m.encode ++ Sentence.lineBreak ++ i.packet.raw, i.packet.received⟩ →
              ∀ key, m.contains key = true → f.tags.bind (·.find? key) = none) ∧
            (Retagger.transform ⟨.policy .prependMissing, template, standing⟩ again given).result = .ok .unchanged := by
  intro h
  obtain ⟨-, hagain⟩ := h ⟨some 0, none, none, none, none⟩ TagMap.empty
    (.fresh ⟨"\\c:x*21\\!AIVDM,1,1,,A,0,0*26".toList, 0⟩)
    (.fresh ⟨"\\c:0*69\\\r\n\\c:x*21\\!AIVDM,1,1,,A,0,0*26".toList, 0⟩) none
    ⟨["!AIVDM,1,1,,A,0,0*26".toList], some (TagMap.empty.insert ['c'] ['x'])⟩
    ⟨["!AIVDM,1,1,,A,0,0*26".toList], some (TagMap.empty.insert ['c'] ['x'])⟩
    (.retagged ⟨"\\c:0*69\\\r\n\\c:x*21\\!AIVDM,1,1,,A,0,0*26".toList, 0⟩)
    (by decide +kernel) (by decide +kernel) rfl (by decide +kernel)
  have hanew : (Retagger.transform ⟨.policy .prependMissing, ⟨some 0, none, none, none, none⟩, TagMap.empty⟩
      (.fresh ⟨"\\c:0*69\\\r\n\\c:x*21\\!AIVDM,1,1,,A,0,0*26".toList, 0⟩) none).result =
      .ok (.retagged ⟨"\\c:0*69\\\r\n\\c:0*69\\\r\n\\c:x*21\\!AIVDM,1,1,,A,0,0*26".toList, 0⟩) := by decide +kernel
  rw [hanew] at hagain
  cases hagain

end Retagging
end VesselTraffic
