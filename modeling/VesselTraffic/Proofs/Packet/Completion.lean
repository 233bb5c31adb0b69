import VesselTraffic.Proofs.Packet.Taggings
import VesselTraffic.Proofs.Result

/-!
# Completing a tagging before or after it is written

What one tagging lacks can be taken from another one in two ways: field by field, before anything is written, or tag by tag, by writing
the first one and beside its tags those of the other one whose keys are not there. The two ways write the same tags in different
orders, so they are told apart by what each key is to get (`Writes`): writing is refused exactly if one of those values is not accepted,
and else ends with them. Hence both ways are refused or both end with the same tags, and so do the ways by the fields that were added
(`toTags_orElse`). A value that loses is added by neither way and is never the reason of a refusal, but for this: the way tag by tag
writes a losing integer too, and one that has too many digits for that ends it.
-/

namespace VesselTraffic

namespace TagMap

/-- Two maps have the same tags exactly if every key has the same value in both. -/
theorem sameTags_iff {m m' : TagMap} : m.sameTags m' = true ↔ ∀ key, m.find? key = m'.find? key := by
  have hall : (m.entries.all fun e => m'.find? e.1 == some e.2) = true ↔ m.entries ⊆ m'.entries := by
    simp only [List.all_eq_true, beq_iff_eq, find?, KeyedList.lookup_eq_some_iff_mem m'.nodup]
    exact Iff.rfl
  rw [sameTags, Bool.and_eq_true, beq_iff_eq, hall]
  constructor
  · rintro ⟨hsize, hsub⟩ key
    have hperm : m.entries.Perm m'.entries := (List.subperm_of_subset m.nodup.of_map hsub).perm_of_length_le hsize.ge
    ext value
    rw [find?, find?, KeyedList.lookup_eq_some_iff_mem m.nodup, KeyedList.lookup_eq_some_iff_mem m'.nodup, hperm.mem_iff]
  · intro h
    have hperm : m.entries.Perm m'.entries := KeyedList.perm_of_lookup_eq m.nodup m'.nodup h
    exact ⟨hperm.length_eq, hperm.subset⟩

/-! ## What writing comes to -/

/-- Two results of writing that come to the same: both are refused for what a tag block must not have, or both are maps with the same
tags, in whatever order. -/
inductive SameOutcome : Except TagFault TagMap → Except TagFault TagMap → Prop where
  | refused {e e' : TagFault} (h : e.category = .tagBlock) (h' : e'.category = .tagBlock) : SameOutcome (.error e) (.error e')
  | written {m m' : TagMap} (h : m.sameTags m' = true) : SameOutcome (.ok m) (.ok m')

/-- A result of writing that gives each key the value that it is to get, or is refused because one of the values is not accepted; and if
all of them can be written, it is refused for what a tag block must not have. -/
def Writes (value : Text → Option TagValue) : Except TagFault TagMap → Prop :=
  Yields (fun m => (∀ key, ∀ v ∈ value key, Accepted (key, v)) ∧ ∀ key, m.find? key = (value key).map TagValue.spelled)
    fun e => (∃ key, ∃ v ∈ value key, ¬Accepted (key, v)) ∧ ((∀ key, ∀ v ∈ value key, v.Writable) → e.category = .tagBlock)

/-- Results that are to give the keys the same values, all of which can be written, come to the same. -/
theorem Writes.sameOutcome {value : Text → Option TagValue} {x y : Except TagFault TagMap} (hx : Writes value x) (hy : Writes value y)
    (hw : ∀ key, ∀ v ∈ value key, v.Writable) : SameOutcome x y := by
  cases x with
  | error e =>
    obtain ⟨⟨key, v, hv, hrefused⟩, he⟩ := hx
    cases y with
    | error e' => exact .refused (he hw) (hy.2 hw)
    | ok m' => exact absurd (hy.1 key v hv) hrefused
  | ok m =>
    cases y with
    | error e' =>
      obtain ⟨⟨key, v, hv, hrefused⟩, -⟩ := hy
      exact absurd (hx.1 key v hv) hrefused
    | ok m' => exact .written (sameTags_iff.2 fun key => (hx.2 key).trans (hy.2 key).symm)

/-- A result that is to give a key a value that cannot be written is a fault. -/
theorem Writes.exists_error {value : Text → Option TagValue} {x : Except TagFault TagMap} (hx : Writes value x)
    (hw : ¬∀ key, ∀ v ∈ value key, v.Writable) : ∃ e, x = .error e := by
  cases x with
  | error e => exact ⟨e, rfl⟩
  | ok m => exact absurd (fun key v hv => (hx.1 key v hv).writable) hw

/-- Adding tags with distinct keys to the empty map gives each key its value among them. -/
theorem writes_addAll {tags : List (Text × TagValue)} (h : (tags.map Prod.fst).Nodup) {value : Text → Option TagValue}
    (hvalue : ∀ key, tags.lookup key = value key) : Writes value (empty.addAll tags).complete := by
  have hmem : ∀ key v, v ∈ value key ↔ (key, v) ∈ tags := by
    intro key v
    rw [Option.mem_def, ← hvalue, KeyedList.lookup_eq_some_iff_mem h]
  rw [complete_addAll]
  cases hrefused : tags.findSome? refusal with
  | none =>
    have haccepted : ∀ t ∈ tags, Accepted t := findSome?_refusal_eq_none_iff.1 hrefused
    refine ⟨fun key v hv => haccepted _ ((hmem key v).1 hv), ?_⟩
    intro key
    rw [find?_insertAll _ (by rw [map_fst_spell]; exact h), find?_empty, Option.or_none, lookup_map_spell, hvalue]
  | some e =>
    obtain ⟨t, ht, hte⟩ := List.exists_of_findSome?_eq_some hrefused
    have hin : t.2 ∈ value t.1 := (hmem t.1 t.2).2 ht
    refine ⟨⟨t.1, t.2, hin, fun haccepted => ?_⟩, fun hw => ?_⟩
    · rw [refusal_eq_none_iff.2 haccepted] at hte
      cases hte
    · rw [refusal, if_pos (hw t.1 t.2 hin)] at hte
      exact category_of_refusalOf hte

/-- Adding tags and then those of others whose keys the map lacks is one writing, and its tags can be told beforehand, if the others can
be written. -/
theorem complete_addAll_missing {tags others : List (Text × TagValue)} (h : (tags.map Prod.fst).Nodup)
    (hothers : (others.map Prod.fst).Nodup) (hw : ∀ t ∈ others, t.2.Writable) :
    ((empty.addAll tags).complete.bind fun m => (m.addMissing others).complete) =
      (empty.addAll (tags ++ others.filter fun t => (tags.lookup t.1).isNone)).complete := by
  rw [complete_addAll_append]
  cases hadded : (empty.addAll tags).complete with
  | error e => rfl
  | ok m =>
    obtain ⟨-, rfl⟩ := complete_addAll_eq_ok_iff.1 hadded
    have hcontains : ∀ key, (!(empty.insertAll (tags.map spell)).contains key) = (tags.lookup key).isNone := by
      intro key
      rw [contains_eq, find?_insertAll _ (by rw [map_fst_spell]; exact h), find?_empty, Option.or_none, lookup_map_spell,
        Option.isSome_map, Option.not_isSome]
    simp only [Except.bind, complete_addMissing_of_writable _ hothers hw, hcontains]

end TagMap

namespace Tagging

open TagMap

/-! ## Field by field -/

/-- Taggings that have no field in common: none is set in both. -/
structure Apart (s t : Tagging) : Prop where
  timestamp : s.timestamp = none ∨ t.timestamp = none
  sourceId : s.sourceId = none ∨ t.sourceId = none
  sourceBs : s.sourceBs = none ∨ t.sourceBs = none
  sourceCountry : s.sourceCountry = none ∨ t.sourceCountry = none
  sourceType : s.sourceType = none ∨ t.sourceType = none

/-- What a tagging is completed with has no field in common with it. -/
theorem missingFrom_apart (t other : Tagging) : Apart (t.missingFrom other) t := by
  have field : ∀ {α : Type} (own new : Option α), missingField own new = none ∨ own = none := by
    intro α own new
    cases own with
    | none => exact Or.inr rfl
    | some x => exact Or.inl rfl
  exact ⟨field _ _, field _ _, field _ _, field _ _, field _ _⟩

/-- A completed tagging lacks nothing that the other one has. -/
theorem missingFrom_orElse (t other : Tagging) : (t.orElse other).missingFrom other = empty := by
  have field : ∀ {α : Type} (own new : Option α), missingField (own <|> new) new = none := by
    intro α own new
    cases own <;> cases new <;> rfl
  simp only [missingFrom, orElse, field, empty]

/-- Completing a tagging from the same one again leaves it as it is. -/
theorem orElse_orElse (t other : Tagging) : (t.orElse other).orElse other = t.orElse other := by
  have field : ∀ {α : Type} (own new : Option α), ((own <|> new) <|> new) = (own <|> new) := by
    intro α own new
    cases own <;> cases new <;> rfl
  simp only [orElse, field]

/-! ## Tag by tag -/

/-- A tagging of which every integer can be written. -/
def Writable (t : Tagging) : Prop := ∀ tag ∈ t.tags, tag.2.Writable

/-- The tags of a tagging can be written exactly if the values of all keys can. -/
theorem writable_iff {t : Tagging} : t.Writable ↔ ∀ key, ∀ v ∈ t.tags.lookup key, v.Writable := by
  simp only [Option.mem_def, KeyedList.lookup_eq_some_iff_mem t.nodup_keys_tags]
  exact ⟨fun h key v hv => h (key, v) hv, fun h tag ht => h tag.1 tag.2 ht⟩

/-- What is written of a completed tagging is written of one of the two. -/
theorem Writable.orElse {t other : Tagging} (h : t.Writable) (hother : other.Writable) : (t.orElse other).Writable := by
  rw [writable_iff] at h hother ⊢
  intro key v hv
  rw [lookup_orElse, Option.mem_def, Option.or_eq_some_iff] at hv
  exact hv.elim (h key v) fun hv => hother key v hv.2

/-- A tagging over the tags of another one that it has no key in common with. -/
theorem writes_writeOver {s t : Tagging} (h : ∀ key, s.tags.lookup key = none ∨ t.tags.lookup key = none) :
    Writes (fun key => (s.tags.lookup key).or (t.tags.lookup key)) (s.toTags.bind fun m => (t.writeOver m).complete) := by
  simp only [toTags, writeOver]
  rw [← complete_addAll_append]
  exact writes_addAll (KeyedList.nodup_append (nodup_keys_tags s) (nodup_keys_tags t) h) fun key => List.lookup_append

/-- Another tagging, which can be written, beside the tags of a tagging: its values are those of the keys that the first one lacks. -/
theorem writes_writeMissing (t : Tagging) {other : Tagging} (hw : other.Writable) :
    Writes (fun key => (t.tags.lookup key).or (other.tags.lookup key)) (t.toTags.bind fun m => (other.writeMissing m).complete) := by
  simp only [toTags, writeOver, writeMissing]
  rw [complete_addAll_missing (nodup_keys_tags t) (nodup_keys_tags other) hw]
  exact writes_addAll (KeyedList.nodup_append_missing (nodup_keys_tags t) (nodup_keys_tags other))
    fun key => KeyedList.lookup_append_missing _ _ key

/-- Another tagging beside the tags of a tagging is a fault if not every integer of both can be written. -/
theorem exists_error_writeMissing {t other : Tagging} (h : ¬(t.Writable ∧ other.Writable)) :
    ∃ e, (t.toTags.bind fun m => (other.writeMissing m).complete) = .error e := by
  cases hresult : t.toTags.bind fun m => (other.writeMissing m).complete with
  | error e => exact ⟨e, rfl⟩
  | ok m' =>
    obtain ⟨m, hm, hm'⟩ := bind_eq_ok_iff.1 hresult
    have hown := (complete_addAll_eq_ok_iff.1 hm).1
    have hothers := ((complete_addMissing_eq_ok_iff (nodup_keys_tags other)).1 hm').1.1
    exact absurd ⟨fun tag ht => (hown tag ht).writable, hothers⟩ h

/-- The two ways may be refused for different tags. -/
example :
    let t : Tagging := { Tagging.empty with sourceType := some "a,b".toList }
    let other : Tagging := { Tagging.empty with sourceId := some "c,d".toList }
    (t.orElse other).toTags = .error (.invalidValue "c,d".toList idKey) ∧
      (t.toTags.bind fun m => (other.writeMissing m).complete) = .error (.invalidValue "a,b".toList typeKey) := by
  decide +kernel

end Tagging
end VesselTraffic
