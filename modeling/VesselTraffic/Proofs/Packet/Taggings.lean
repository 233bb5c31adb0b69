import VesselTraffic.Proofs.TagBlock.Writing

/-!
# The tags of taggings

A tagging is known to a tag map by its tags, so what it says about a key is the value of the key among them. What is done to the
fields of two taggings is done to their tags (`lookup_fieldwise`): completing a tagging adds the tags whose keys it lacks
(`lookup_missingFrom`) and keeps the others (`lookup_orElse`). What a tagging that is read off a map lacks is not quite what the map
lacks: a time or a base station that does not spell an integer is there in the map and not in the tagging
(`lookup_ofRead_eq_none_iff`).
-/

namespace VesselTraffic.Tagging

open TagMap

/-- The value of a key among the tags of one field. -/
theorem lookup_tag {α : Type} (key : Text) (value : α → TagValue) (field : Option α) (k : Text) :
    (tag key value field).lookup k = if k = key then field.map value else none := by
  cases field with
  | none => simp [tag]
  | some x =>
    by_cases hk : k = key
    · rw [if_pos hk, hk]
      exact KeyedList.lookup_cons_self key (value x) []
    · rw [if_neg hk]
      exact KeyedList.lookup_cons_ne hk (value x) []

/-- The value of a key among the tags of a tagging: that of the field with the key. -/
theorem lookup_tags (t : Tagging) (k : Text) :
    t.tags.lookup k =
      if k = timeKey then t.timestamp.map fun ms => .integer (ms / 1000)
      else if k = idKey then t.sourceId.map .text
      else if k = bsKey then t.sourceBs.map .integer
      else if k = countryKey then t.sourceCountry.map .text
      else if k = typeKey then t.sourceType.map .text
      else none := by
  simp only [tags, List.lookup_append, lookup_tag]
  by_cases hc : k = timeKey
  · simp [hc, timeKey, idKey, bsKey, countryKey, typeKey]
  · by_cases hi : k = idKey
    · simp [hi, timeKey, idKey, bsKey, countryKey, typeKey]
    · by_cases hb : k = bsKey
      · simp [hb, timeKey, idKey, bsKey, countryKey, typeKey]
      · by_cases hs : k = countryKey
        · simp [hs, timeKey, idKey, bsKey, countryKey, typeKey]
        · simp [hc, hi, hb, hs]

/-- A tagging that is made from two others by one rule for all fields: its value of a key is made by that rule from theirs. -/
theorem lookup_fieldwise (rule : ∀ {α : Type}, Option α → Option α → Option α)
    (hmap : ∀ {α β : Type} (own new : Option α) (f : α → β), (rule own new).map f = rule (own.map f) (new.map f))
    (hnone : ∀ {α : Type}, rule (none : Option α) none = none) (t other : Tagging) (k : Text) :
    (Tagging.mk (rule t.timestamp other.timestamp) (rule t.sourceId other.sourceId) (rule t.sourceBs other.sourceBs)
      (rule t.sourceCountry other.sourceCountry) (rule t.sourceType other.sourceType)).tags.lookup k =
      rule (t.tags.lookup k) (other.tags.lookup k) := by
  simp only [lookup_tags, hmap]
  -- One key after the other, and last a key that no field has.
  iterate 5
    split
    · rfl
  exact hnone.symm

/-- The tags that are missing in a tagging are those of the other one whose keys it lacks. -/
theorem lookup_missingFrom (t other : Tagging) (k : Text) :
    (t.missingFrom other).tags.lookup k = if (t.tags.lookup k).isSome then none else other.tags.lookup k := by
  have hrule : (t.missingFrom other).tags.lookup k = missingField (t.tags.lookup k) (other.tags.lookup k) :=
    lookup_fieldwise missingField (fun own new f => by cases own <;> rfl) rfl t other k
  rw [hrule]
  cases t.tags.lookup k <;> rfl

/-- The value of a key in a completed tagging is its own one, or else that of the tagging that completes it. -/
theorem lookup_orElse (t other : Tagging) (k : Text) :
    (t.orElse other).tags.lookup k = (t.tags.lookup k).or (other.tags.lookup k) := by
  have hrule : (t.orElse other).tags.lookup k = (t.tags.lookup k <|> other.tags.lookup k) :=
    lookup_fieldwise (fun own new => own <|> new) (fun own new f => by cases own <;> rfl) rfl t other k
  rw [hrule]
  cases t.tags.lookup k <;> rfl

/-- The keys that a tagging sets are well known. -/
theorem mem_wellKnownKeys {t : Tagging} {key : Text} (h : t.tags.lookup key ≠ none) : key ∈ wellKnownKeys :=
  (keys_tags_sublist t).subset (KeyedList.isSome_lookup_iff.1 (Option.isSome_iff_ne_none.2 h))

/-- A well-known tag that is there but says nothing to a tagging: a time or a base station that does not spell an integer. -/
def Garbled (read : Option TagMap) (key : Text) : Prop :=
  ∃ value, read.bind (·.find? key) = some value ∧ (key = timeKey ∨ key = bsKey) ∧ integer? value = none

instance (read : Option TagMap) (key : Text) : Decidable (Garbled read key) :=
  decidable_of_iff (∃ value ∈ read.bind (·.find? key), (key = timeKey ∨ key = bsKey) ∧ integer? value = none) Iff.rfl

/-- A garbled tag is there. -/
theorem Garbled.present {read : Option TagMap} {key : Text} (h : Garbled read key) : read.bind (·.find? key) ≠ none := by
  obtain ⟨value, hv, -⟩ := h
  rw [hv]
  exact Option.some_ne_none value

/-- A block in which a tag that a template sets is garbled. A tagging that is read off the block has not the field, so the tag is taken
for a missing one. -/
def Mistaken (template : Tagging) (read : Option TagMap) : Prop := ∃ key, template.tags.lookup key ≠ none ∧ Garbled read key

/-- Whether a tag is mistaken for a missing one is told by the well-known keys. -/
theorem mistaken_iff {template : Tagging} {read : Option TagMap} :
    Mistaken template read ↔ ∃ key ∈ wellKnownKeys, template.tags.lookup key ≠ none ∧ Garbled read key :=
  exists_congr fun _ => (and_iff_right_of_imp fun h => mem_wellKnownKeys h.1).symm

instance (template : Tagging) (read : Option TagMap) : Decidable (Mistaken template read) := decidable_of_iff' _ mistaken_iff

/-- The tagging that is read off a block, if there is one. -/
def ofRead (read : Option TagMap) : Tagging := (read.map ofTags).getD empty

/-- The tagging of a packet is read off its block. -/
theorem ofPacket_eq (p : Packet) : ofPacket p = ofRead p.tags? := by
  unfold ofPacket ofRead
  cases p.tags? <;> rfl

/-- A tagging that is read off a block lacks a well-known key exactly if the block lacks it or the tag is garbled. -/
theorem lookup_ofRead_eq_none_iff (read : Option TagMap) {key : Text} (hk : key ∈ wellKnownKeys) :
    (ofRead read).tags.lookup key = none ↔ read.bind (·.find? key) = none ∨ Garbled read key := by
  cases read with
  | none => simp [ofRead, lookup_tags, empty]
  | some m =>
    have hread : ofRead (some m) = ofTags m := rfl
    have hfind : (some m).bind (·.find? key) = m.find? key := rfl
    rw [hread, Garbled, hfind, lookup_tags]
    simp only [wellKnownKeys, List.mem_cons, List.not_mem_nil, or_false] at hk
    have plain : ∀ k, k ≠ timeKey → k ≠ bsKey → (m.find? k = none ↔
        m.find? k = none ∨ ∃ value, m.find? k = some value ∧ (k = timeKey ∨ k = bsKey) ∧ integer? value = none) := by
      intro k hc hb
      simp [hc, hb]
    rcases hk with rfl | rfl | rfl | rfl | rfl
    · rw [if_pos rfl, Option.map_eq_none_iff]
      show m.timestamp? = none ↔ _
      unfold timestamp? integer?
      cases m.find? timeKey with
      | none => simp
      | some value => cases hv : Number.readInteger value <;> simp [hv, Except.toOption]
    · rw [if_neg (by decide), if_pos rfl, Option.map_eq_none_iff]
      exact plain idKey (by decide) (by decide)
    · rw [if_neg (by decide), if_neg (by decide), if_pos rfl, Option.map_eq_none_iff]
      show (m.find? bsKey).bind integer? = none ↔ _
      cases m.find? bsKey with
      | none => simp
      | some value => simp
    · rw [if_neg (by decide), if_neg (by decide), if_neg (by decide), if_pos rfl, Option.map_eq_none_iff]
      exact plain countryKey (by decide) (by decide)
    · rw [if_neg (by decide), if_neg (by decide), if_neg (by decide), if_neg (by decide), if_pos rfl, Option.map_eq_none_iff]
      exact plain typeKey (by decide) (by decide)

end VesselTraffic.Tagging
