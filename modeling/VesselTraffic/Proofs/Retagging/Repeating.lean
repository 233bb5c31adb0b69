import VesselTraffic.Proofs.Retagging.Replacing

/-!
# Retagging again

A packet that was replaced or merged comes out the same when it is retagged once more (`transform_again`). Three things are fixed
points. The lines: those of the packet are cropped already, and the line of the block is left out if no tag has one of the marks that
sentences start with. The tags: writing the same tags again changes no value and no place, and beside the tags of a merged packet there
is nothing left to write. The time: replacing reads the seconds that it wrote, unless an extra tag took their place; then the packet is
dated by its reception, and that may have too many digits to be written (`Undatable`).
-/

namespace VesselTraffic

namespace TagMap

/-- The keys of tags that were inserted are there. -/
theorem mem_keys_insertAll {m : TagMap} {tags : List (Text × Text)} {t : Text × Text} (h : t ∈ tags) :
    t.1 ∈ (m.insertAll tags).keys := by
  induction tags generalizing m with
  | nil => exact absurd h List.not_mem_nil
  | cons u rest ih =>
    rcases List.mem_cons.1 h with rfl | h
    · refine (keys_prefix_insertAll (m.insert t.1 t.2) rest).subset ?_
      rw [keys_insert]
      split
      · assumption
      · exact List.mem_append_right _ (List.mem_singleton.2 rfl)
    · exact ih h

/-- Inserting tags whose keys are there leaves the keys as they are. -/
theorem keys_insertAll_of_mem {m : TagMap} {tags : List (Text × Text)} (h : ∀ t ∈ tags, t.1 ∈ m.keys) :
    (m.insertAll tags).keys = m.keys := by
  induction tags generalizing m with
  | nil => rfl
  | cons t rest ih =>
    obtain ⟨ht, hrest⟩ := List.forall_mem_cons.1 h
    have hkeys : (m.insert t.1 t.2).keys = m.keys := by rw [keys_insert, if_pos ht]
    exact (ih fun u hu => hkeys ▸ hrest u hu).trans hkeys

/-- Inserting tags again changes nothing. -/
theorem insertAll_again (m : TagMap) (tags : List (Text × Text)) : (m.insertAll tags).insertAll tags = m.insertAll tags := by
  refine ext_find? (keys_insertAll_of_mem fun t ht => mem_keys_insertAll ht) fun k => ?_
  rw [find?_insertAll_reverse, find?_insertAll_reverse]
  cases tags.reverse.lookup k <;> rfl

end TagMap

namespace Retagging

open TagMap Packet

/-! ## The lines -/

/-- A tag without the marks that sentences start with. -/
def Unmarked (t : Text × Text) : Prop := ('!' ∉ t.1 ∧ '!' ∉ t.2) ∧ '$' ∉ t.1 ∧ '$' ∉ t.2

instance (t : Text × Text) : Decidable (Unmarked t) := inferInstanceAs (Decidable (_ ∧ _))

/-- A block of tags without marks is left out when its line is cropped. -/
theorem cropLine_encode {m : TagMap} (h : ∀ t ∈ m.entries, Unmarked t) (dropProprietary : Bool) :
    Sentence.cropLine dropProprietary m.encode = none := by
  have hbang : '!' ∉ m.encode := by
    rw [mem_encode_iff (by decide)]
    rintro ⟨t, ht, hin⟩
    exact hin.elim (h t ht).1.1 (h t ht).1.2
  have hdollar : '$' ∉ m.encode := by
    rw [mem_encode_iff (by decide)]
    rintro ⟨t, ht, hin⟩
    exact hin.elim (h t ht).2.1 (h t ht).2.2
  exact Sentence.cropLine_of_marks_not_mem hbang hdollar dropProprietary

/-- Cropped lines behind a block of tags without marks are what the whole is cropped to. -/
theorem crop_lines_withBlock {m : TagMap} (hf : '\n' ∉ m.encode) (h : ∀ t ∈ m.entries, Unmarked t) (p : Packet)
    (dropProprietary : Bool) (received : Int) :
    Sentence.crop dropProprietary (Packet.mk (withBlock m (Sentence.crop dropProprietary p.lines)) received).lines =
      Sentence.crop dropProprietary p.lines := by
  rw [lines_withBlock hf]
  split
  · rw [List.nil_append, Sentence.crop_crop]
  · rw [List.singleton_append, Sentence.crop, List.filterMap_cons_none (cropLine_encode h dropProprietary)]
    exact Sentence.crop_crop dropProprietary p.lines

/-- A rewritten packet that has a frame is cropped to the lines that it was written from. -/
theorem crop_lines_of_frame? {m : TagMap} (hm : m.Legible) {p out : Packet} {dropProprietary : Bool} {received : Int} {g : Frame}
    (hout : out = ⟨withBlock m (Sentence.crop dropProprietary p.lines), received⟩) (hg : out.frame? = some g)
    (h : ∀ tags, g.tags = some tags → ∀ t ∈ tags.entries, Unmarked t) :
    Sentence.crop dropProprietary out.lines = Sentence.crop dropProprietary p.lines := by
  subst hout
  have hread := tags_of_frame?_withBlock hm hg
  have hwhole : '\n' ∉ m.encode := by
    intro hf
    rw [frame?_withBlock hm, if_pos hf] at hg
    cases hg
  refine crop_lines_withBlock hwhole ?_ p dropProprietary received
  cases hempty : m.isEmpty with
  | true =>
    rw [isEmpty_eq_true_iff.1 hempty]
    exact fun t ht => absurd ht List.not_mem_nil
  | false => exact h m (by rw [hread, hempty]; rfl)

/-! ## The time -/

/-- A packet is dated by its reception or by a number of seconds that can be written. -/
theorem timestamp_eq_received_or_readable (p : Packet) :
    p.timestamp = p.received ∨ Number.Readable (p.timestamp / 1000) := by
  rw [Packet.timestamp]
  cases ht : p.tags?.bind TagMap.timestamp? with
  | none => exact Or.inl rfl
  | some time =>
    obtain ⟨m, -, hm⟩ := Option.bind_eq_some_iff.1 ht
    rw [timestamp?] at hm
    split at hm
    · cases hm
    · split at hm
      · cases hm
      · rename_i n hn
        have hread := Number.readable_of_readInteger hn
        rw [Number.Readable] at hread
        refine Or.inr (Nat.lt_of_le_of_lt ?_ hread)
        rw [← Option.some.inj hm, Option.getD_some]
        split <;> omega

/-- The block that replacing makes depends on the seconds alone, and on nothing of the time if an extra tag overrides it. -/
theorem replacedBlock_congr {time time' : Int} {template : Tagging} {extras : TagMap}
    (h : extras.find? timeKey = none → time / 1000 = time' / 1000) :
    replacedBlock time template extras = replacedBlock time' template extras := by
  refine ext_find? ?_ fun k => ?_
  · rw [replacedBlock, replacedBlock, keys_insertAll_empty, keys_insertAll_empty, map_fst_spell, map_fst_spell]
    rfl
  · rw [find?_replacedBlock, find?_replacedBlock, replacedValue, replacedValue]
    by_cases hk : k = timeKey
    · subst hk
      cases he : extras.find? timeKey with
      | some v => rfl
      | none => rw [h he]
    · rw [if_neg hk, if_neg hk]

/-- A packet whose time is too long to be written in seconds by the policy that replaces. -/
def Undatable (policy : Policy) (p : Packet) : Prop := policy = .replace ∧ ¬Number.Readable (p.timestamp / 1000)

instance (policy : Policy) (p : Packet) : Decidable (Undatable policy p) := inferInstanceAs (Decidable (_ ∧ _))

/-- What comes of retagging a packet once more: the packet as it is, unless its time is too long to be written again. -/
def outcomeAgain (policy : Policy) (out : Packet) : Except TagFault Retagging :=
  if Undatable policy out then .error (.number .tooLongToWrite) else .ok (.retagged out)

/-- Replacing again writes the same packet, if its time can be written. It is the one that was written before, unless an extra tag
overrides it. -/
theorem replace_again {p out : Packet} {g : Frame} {template : Tagging} {extras : TagMap}
    (h : replace p template extras = .ok (.retagged out)) (hg : out.frame? = some g)
    (hmarks : ∀ tags, g.tags = some tags → ∀ t ∈ tags.entries, Unmarked t) (hsmall : p.timestamp < pow10 14) :
    replace out template extras = outcomeAgain .replace out := by
  obtain ⟨haccepted, hr⟩ := replace_eq_ok_iff.1 h
  obtain ⟨m, hm⟩ : ∃ m, m = replacedBlock p.timestamp template extras := ⟨_, rfl⟩
  rw [← hm] at hr
  have hout := Retagging.retagged.inj hr
  have hlegible : m.Legible := hm ▸ legible_replacedBlock haccepted
  have hread : g.tags = some m := by
    rw [tags_of_frame?_withBlock hlegible (hout ▸ hg), hm, isEmpty_replacedBlock]
    rfl
  have hreceived : out.received = p.received := by rw [hout]
  have hseconds : extras.find? timeKey = none → out.timestamp / 1000 = p.timestamp / 1000 := by
    intro he
    rw [timestamp_of_replaced hg (hm ▸ hread) he hsmall (readable_of_accepted haccepted)]
    exact Int.mul_ediv_cancel _ (by decide)
  by_cases hw : Number.Readable (out.timestamp / 1000)
  · rw [outcomeAgain, if_neg fun h => h.2 hw]
    refine replace_eq_ok_iff.2 ⟨List.forall_mem_cons.2 ⟨accepted_time_iff.2 hw, (List.forall_mem_cons.1 haccepted).2⟩, ?_⟩
    rw [replacedBlock_congr hseconds, ← hm, crop_lines_of_frame? hlegible hout hg hmarks, hreceived, ← hout]
  · have hrefused : refusal (timeKey, .integer (out.timestamp / 1000)) = some (.number .tooLongToWrite) := if_neg hw
    rw [outcomeAgain, if_pos ⟨rfl, hw⟩, replace, replacement_eq, complete_addAll, replacedTags, List.findSome?_cons, hrefused]
    rfl

/-! ## The tags -/

/-- Merging into a packet with a frame writes its tags, all of which have to be valid, in front of the cropped lines, if all integers of
the template can be written. -/
theorem merge_eq_ok_iff {override : Bool} {p : Packet} {f : Frame} (hf : p.frame? = some f) {template : Tagging} {extras : TagMap}
    {r : Retagging} :
    merge override p template extras = .ok r ↔
      ((∀ t ∈ template.tags, t.2.Writable) ∧ ∀ t ∈ writtenTags override f.tags template extras, Valid t) ∧
        r = .retagged ⟨withBlock ((f.tags.getD TagMap.empty).insertAll (writtenTags override f.tags template extras))
          (Sentence.crop false p.lines), p.received⟩ := by
  rw [merge_of_frame hf, ← mergeRefusal_eq_none_iff]
  cases mergeRefusal override f.tags template extras <;> simp [eq_comm]

/-- There is nothing to be written beside tags that have all keys of the template and of the extra tags. -/
theorem writtenTags_eq_nil {read : Option TagMap} {template : Tagging} {extras : TagMap}
    (h : ∀ t ∈ template.spelled ++ extras.entries, (read.getD TagMap.empty).contains t.1 = true) :
    writtenTags false read template extras = [] := by
  cases read with
  | none => exact List.eq_nil_iff_forall_not_mem.2 fun t ht => absurd (h t ht) Bool.false_ne_true
  | some m =>
    obtain ⟨htemplate, hextras⟩ := List.forall_mem_append.1 h
    refine List.append_eq_nil_iff.2 ⟨List.filter_eq_nil_iff.2 fun t ht => ?_, List.filter_eq_nil_iff.2 fun t ht => ?_⟩
    · have hm : m.contains t.1 = true := htemplate t ht
      simp [hm]
    · have hm : m.contains t.1 = true := hextras t ht
      simp [hm]

/-- A key of the template or of the extra tags has a value after merging. -/
theorem isSome_mergedValue (override : Bool) (own : Option TagMap) {template : Tagging} {extras : TagMap} {t : Text × Text}
    (h : t ∈ template.spelled ++ extras.entries) : (mergedValue override own template extras t.1).isSome = true := by
  have hkey : (template.spelled.lookup t.1).isSome = true ∨ (extras.find? t.1).isSome = true :=
    (List.mem_append.1 h).imp (fun ht => KeyedList.isSome_lookup_iff.2 (List.mem_map_of_mem ht))
      fun ht => KeyedList.isSome_lookup_iff.2 (List.mem_map_of_mem ht)
  unfold mergedValue
  split <;> rcases hkey with hkey | hkey <;> simp [Option.isSome_or, hkey]

/-- What is written into the tags of a merged packet is no new tag and changes none. -/
theorem insertAll_writtenTags_again (override : Bool) (own : Option TagMap) (template : Tagging) (extras : TagMap) {m : TagMap}
    (hm : m = (own.getD TagMap.empty).insertAll (writtenTags override own template extras)) {read : Option TagMap}
    (hread : read.getD TagMap.empty = m) :
    writtenTags override read template extras ⊆ writtenTags override own template extras ∧
      m.insertAll (writtenTags override read template extras) = m := by
  cases override with
  | true =>
    have hsame : ∀ own : Option TagMap, writtenTags true own template extras = template.spelled ++ extras.entries := fun own => by
      cases own <;> rfl
    rw [hsame] at hm
    rw [hsame, hsame, hm]
    exact ⟨List.Subset.refl _, insertAll_again _ _⟩
  | false =>
    have hnil : writtenTags false read template extras = [] := by
      refine writtenTags_eq_nil fun t ht => ?_
      rw [hread, hm, contains_eq, find?_insertAll_writtenTags]
      exact isSome_mergedValue false own ht
    rw [hnil]
    exact ⟨List.nil_subset _, rfl⟩

/-- Merging again writes the same packet. -/
theorem merge_again {override : Bool} {p out : Packet} {g : Frame} {template : Tagging} {extras : TagMap}
    (h : merge override p template extras = .ok (.retagged out)) (hg : out.frame? = some g)
    (hmarks : ∀ tags, g.tags = some tags → ∀ t ∈ tags.entries, Unmarked t) :
    merge override out template extras = .ok (.retagged out) := by
  cases hf : p.frame? with
  | none =>
    rw [merge, hf] at h
    cases h
  | some f =>
    obtain ⟨⟨hwritable, hvalid⟩, hr⟩ := (merge_eq_ok_iff hf).1 h
    obtain ⟨m, hm⟩ : ∃ m, m = (f.tags.getD TagMap.empty).insertAll (writtenTags override f.tags template extras) := ⟨_, rfl⟩
    rw [← hm] at hr
    have hout := Retagging.retagged.inj hr
    have hlegible : m.Legible := hm ▸ (legible_own hf).insertAll_of_valid hvalid
    have hread : g.tags.getD TagMap.empty = m := by
      rw [tags_of_frame?_withBlock hlegible (hout ▸ hg), getD_ite_isEmpty]
    have hreceived : out.received = p.received := by rw [hout]
    obtain ⟨hsubset, hsame⟩ := insertAll_writtenTags_again override f.tags template extras hm hread
    refine (merge_eq_ok_iff hg).2 ⟨⟨hwritable, fun t ht => hvalid t (hsubset ht)⟩, ?_⟩
    rw [hread, hsame, crop_lines_of_frame? hlegible hout hg hmarks, hreceived, ← hout]

/-- Retagging keeps the time of reception. -/
theorem received_of_retag {policy : Policy} {p out : Packet} {template : Tagging} {extras : TagMap} (hpolicy : policy ≠ .prependMissing)
    (h : policy.retag p template extras = .ok (.retagged out)) : out.received = p.received := by
  have hmerge : ∀ override, merge override p template extras = .ok (.retagged out) → out.received = p.received := by
    intro override h
    cases hf : p.frame? with
    | none =>
      rw [merge, hf] at h
      cases h
    | some f => rw [Retagging.retagged.inj ((merge_eq_ok_iff hf).1 h).2]
  cases policy with
  | prependMissing => exact absurd rfl hpolicy
  | replace => rw [Retagging.retagged.inj (replace_eq_ok_iff.1 h).2]
  | mergeOverride => exact hmerge true h
  | mergePreserve => exact hmerge false h

end Retagging
end VesselTraffic
