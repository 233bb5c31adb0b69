import VesselTraffic.Proofs.TagBlock.Parsing

/-!
# Legible maps

The invariant of every map that a tag block can stand for: no key is empty or has a comma, a colon or a backslash, and no value has a
comma or a backslash. It has two producers. Adding is the stricter one, it refuses stars in keys too; reading lets them through,
because a group is cut at its last star. Inserting legible tags keeps a map legible, and so does reading (`legible_of_parse`).
-/

namespace VesselTraffic.TagMap

/-- A tag that can be told from its neighbours in a block. -/
structure LegibleTag (t : Text × Text) : Prop where
  key_ne_nil : t.1 ≠ []
  comma_key : ',' ∉ t.1
  colon_key : ':' ∉ t.1
  backslash_key : '\\' ∉ t.1
  comma_value : ',' ∉ t.2
  backslash_value : '\\' ∉ t.2

/-- A map of legible tags. -/
def Legible (m : TagMap) : Prop := ∀ t ∈ m.entries, LegibleTag t

/-- A value can be added exactly if it has neither a comma nor a backslash. -/
theorem validValue_iff {value : Text} : validValue value = true ↔ ',' ∉ value ∧ '\\' ∉ value := by
  simp only [validValue, List.all_eq_true, Bool.and_eq_true, bne_iff_ne]
  constructor
  · intro h
    exact ⟨fun hc => (h _ hc).1 rfl, fun hc => (h _ hc).2 rfl⟩
  · rintro ⟨hcomma, hbackslash⟩ c hc
    exact ⟨fun e => hcomma (e ▸ hc), fun e => hbackslash (e ▸ hc)⟩

/-- A tag that can be added is legible. -/
theorem LegibleTag.of_valid {t : Text × Text} (h : Valid t) : LegibleTag t := by
  obtain ⟨hk, hv⟩ := h
  simp only [validKey, Bool.and_eq_true, Bool.not_eq_true', List.isEmpty_eq_false_iff, List.all_eq_true, bne_iff_ne] at hk
  obtain ⟨hne, hall⟩ := hk
  obtain ⟨hcomma, hbackslash⟩ := validValue_iff.1 hv
  exact
    { key_ne_nil := hne
      comma_key := fun hc => (hall _ hc).1.1.1 rfl
      colon_key := fun hc => (hall _ hc).1.1.2 rfl
      backslash_key := fun hc => (hall _ hc).2 rfl
      comma_value := hcomma
      backslash_value := hbackslash }

/-- What is among the entries after one was written is that one or was there before. -/
theorem mem_write {key value : Text} {e : Text × Text} {l : List (Text × Text)} (h : e ∈ write key value l) :
    e = (key, value) ∨ e ∈ l := by
  induction l with
  | nil => exact Or.inl (List.mem_singleton.1 h)
  | cons x rest ih =>
    rw [write] at h
    split at h
    · rcases List.mem_cons.1 h with h | h
      · exact Or.inl h
      · exact Or.inr (List.mem_cons_of_mem _ h)
    · rcases List.mem_cons.1 h with h | h
      · exact Or.inr (h ▸ List.mem_cons_self)
      · exact (ih h).imp_right (List.mem_cons_of_mem _)

/-- The empty map is legible. -/
theorem legible_empty : Legible empty := fun _ ht => absurd ht List.not_mem_nil

/-- Inserting a legible tag keeps a map legible. -/
theorem Legible.insert {m : TagMap} (h : m.Legible) {key value : Text} (ht : LegibleTag (key, value)) :
    (m.insert key value).Legible := by
  intro e he
  rcases mem_write he with rfl | he
  · exact ht
  · exact h e he

/-- Inserting legible tags keeps a map legible. -/
theorem Legible.insertAll {m : TagMap} (h : m.Legible) {tags : List (Text × Text)} (ht : ∀ t ∈ tags, LegibleTag t) :
    (m.insertAll tags).Legible := by
  induction tags generalizing m with
  | nil => exact h
  | cons t rest ih =>
    exact ih (h.insert (ht t List.mem_cons_self)) fun u hu => ht u (List.mem_cons_of_mem t hu)

/-- Inserting valid tags keeps a map legible. -/
theorem Legible.insertAll_of_valid {m : TagMap} (h : m.Legible) {tags : List (Text × Text)} (ht : ∀ t ∈ tags, Valid t) :
    (m.insertAll tags).Legible :=
  h.insertAll fun t hm => LegibleTag.of_valid (ht t hm)

/-- Inserting accepted tags as they are spelled keeps a map legible. -/
theorem Legible.insertAll_of_accepted {m : TagMap} (h : m.Legible) {tags : List (Text × TagValue)} (ht : ∀ t ∈ tags, Accepted t) :
    (m.insertAll (tags.map spell)).Legible :=
  h.insertAll_of_valid (List.forall_mem_map.2 fun t hm => (ht t hm).valid)

/-- Adding tags to a legible map leaves one. -/
theorem Legible.addAll {m m' : TagMap} (h : m.Legible) {tags : List (Text × TagValue)} (ha : (m.addAll tags).complete = .ok m') :
    m'.Legible := by
  obtain ⟨haccepted, rfl⟩ := complete_addAll_eq_ok_iff.1 ha
  exact h.insertAll_of_accepted haccepted

/-! ## Reading -/

/-- Adding the tags whose keys a legible map lacks, all with other keys, keeps it legible. -/
theorem Legible.addMissing {m m' : TagMap} (h : m.Legible) {tags : List (Text × TagValue)} (hn : (tags.map Prod.fst).Nodup)
    (ha : (m.addMissing tags).complete = .ok m') : m'.Legible := by
  obtain ⟨⟨-, hvalid⟩, rfl⟩ := (complete_addMissing_eq_ok_iff hn).1 ha
  refine h.insertAll_of_valid (List.forall_mem_map.2 fun t ht => ?_)
  obtain ⟨hin, hlacks⟩ := List.mem_filter.1 ht
  exact hvalid t hin (Bool.not_eq_true' _ ▸ hlacks)

/-- A legible tag is spelled by its field, which has no backslash. -/
theorem LegibleTag.fieldText {t : Text × Text} (h : LegibleTag t) : FieldTag t ∧ '\\' ∉ TagMap.fieldText t := by
  have hcomma : ',' ∉ TagMap.fieldText t := by
    simp only [TagMap.fieldText, List.mem_append, List.mem_cons, not_or]
    exact ⟨h.comma_key, by decide, h.comma_value⟩
  refine ⟨⟨h.key_ne_nil, h.colon_key, hcomma⟩, ?_⟩
  simp only [TagMap.fieldText, List.mem_append, List.mem_cons, not_or]
  exact ⟨h.backslash_key, by decide, h.backslash_value⟩

/-- A tag is legible if a field without backslash spells it. -/
theorem FieldTag.legible {t : Text × Text} (h : FieldTag t) (hb : '\\' ∉ fieldText t) : LegibleTag t := by
  have hc := h.comma
  simp only [fieldText, List.mem_append, List.mem_cons, not_or] at hc hb
  exact
    { key_ne_nil := h.key_ne_nil
      comma_key := hc.1
      colon_key := h.colon_key
      backslash_key := hb.1
      comma_value := hc.2.2
      backslash_value := hb.2.2 }

/-- A mark other than the comma occurs in joined fields exactly if it occurs in one of them. -/
theorem mem_intercalate_iff {c : Char} (hc : c ≠ ',') {fields : List Text} :
    c ∈ [','].intercalate fields ↔ ∃ f ∈ fields, c ∈ f := by
  induction fields with
  | nil => simp
  | cons f rest ih =>
    cases rest with
    | nil => simp
    | cons g rest =>
      rw [List.intercalate_cons_cons, List.mem_append, List.mem_append, List.mem_singleton, ih]
      simp [hc]

/-- The tags of a group without backslashes are legible. -/
theorem Spells.legible {u : Text} {tags : List (Text × Text)} (h : Spells (.closed u) tags) (hu : '\\' ∉ u) :
    ∀ t ∈ tags, LegibleTag t := by
  cases h with
  | mk fields star sum =>
    intro t ht
    refine (fields t ht).legible fun hb => hu (List.mem_append_left _ ?_)
    exact (mem_intercalate_iff (by decide)).2 ⟨fieldText t, List.mem_map_of_mem ht, hb⟩

/-- The tags of groups without backslashes are legible. -/
theorem SpellAll.legible {gs : List Group} {tags : List (Text × Text)} (h : SpellAll gs tags)
    (hg : ∀ u, Group.closed u ∈ gs → '\\' ∉ u) : ∀ t ∈ tags, LegibleTag t := by
  induction h with
  | nil => exact fun t ht => absurd ht List.not_mem_nil
  | @cons g gs tags tags' first others ih =>
    have hrest := ih fun u hu => hg u (List.mem_cons_of_mem g hu)
    intro t ht
    rcases List.mem_append.1 ht with ht | ht
    · cases g with
      | unterminated line => cases first
      | closed u => exact first.legible (hg u List.mem_cons_self) t ht
    · exact hrest t ht

/-- The groups of lines have no backslash in their texts. -/
theorem backslash_not_mem_of_mem_groups {lines : List Text} {u : Text} (h : Group.closed u ∈ lines.flatMap groups) : '\\' ∉ u := by
  obtain ⟨line, -, hl⟩ := List.mem_flatMap.1 h
  exact (groups_eq_iff.1 rfl : Opens line line (groups line)).backslash_not_mem hl

/-- A map that was read is legible. -/
theorem legible_of_parse {lines : List Text} {m : TagMap} (h : parse lines = .ok (some m)) : m.Legible := by
  obtain ⟨tags, ht, hm⟩ := spellAll_of_parse h
  have hmade : m = empty.insertAll tags := hm
  rw [hmade]
  exact legible_empty.insertAll (ht.legible fun u hu => backslash_not_mem_of_mem_groups hu)

end VesselTraffic.TagMap
