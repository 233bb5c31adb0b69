import VesselTraffic.Proofs.TagBlock.Checksum
import VesselTraffic.Proofs.TagBlock.Legible

/-!
# Reading what was written

A legible map is read back from its block: the block is one group, its last star is the one before the checksum, its commas part the
fields, and the first colon of a field is behind its key, so the group spells the entries of the map (`Legible.spells`). A line that
starts with the block of a map reads as the insertion of that map (`Legible.readGroup_encode`), and the block alone reads as the map
itself, with its keys in their order (`Legible.parse_encode_cons`).
-/

namespace VesselTraffic.TagMap

/-- A line that is a backslash before characters that are none has a group that is not terminated. -/
theorem groups_unterminated {t : Text} (h : '\\' ∉ t) : groups ('\\' :: t) = [.unterminated ('\\' :: t)] :=
  groups_eq_iff.2 (.unterminated h)

/-- The body of a legible map has no backslash. -/
theorem Legible.backslash_not_mem_body {m : TagMap} (h : m.Legible) : '\\' ∉ m.body := by
  rw [body, mem_intercalate_iff (by decide)]
  rintro ⟨f, hf, hb⟩
  obtain ⟨t, ht, rfl⟩ := List.mem_map.1 hf
  exact (h t ht).fieldText.2 hb

/-- The group of the block of a legible map spells the entries of the map. -/
theorem Legible.spells {m : TagMap} (h : m.Legible) : Spells (.closed (m.body ++ '*' :: checksum m.body)) m.entries :=
  .mk (fun t ht => (h t ht).fieldText.1) (not_mem_checksum (by decide) m.body) (upper_checksum m.body)

/-- The group of a legible map reads as the insertion of its entries. -/
theorem Legible.readGroup_encode {m : TagMap} (h : m.Legible) (front : TagMap) :
    front.readGroup (.closed (m.body ++ '*' :: checksum m.body)) = .ok (front.insertAll m.entries) :=
  readGroup_of_spells h.spells front

/-- A line that is a block of a legible map, before anything that does not start with a backslash, has the map's group alone. -/
theorem Legible.groups_encode {m : TagMap} (h : m.Legible) {rest : Text} (hr : rest.head? ≠ some '\\') :
    groups (m.encode ++ rest) = [.closed (m.body ++ '*' :: checksum m.body)] := by
  have hs : '\\' ∉ m.body ++ '*' :: checksum m.body := by
    rw [List.mem_append, List.mem_cons, not_or, not_or]
    exact ⟨h.backslash_not_mem_body, by decide, not_mem_checksum (by decide) m.body⟩
  have e : m.encode ++ rest = '\\' :: ((m.body ++ '*' :: checksum m.body) ++ '\\' :: rest) := by simp [encode]
  rw [groups_eq_iff, e]
  exact .closed hs (.nothing hr)

/-- Behind a line with the block of a legible map, the other lines are read into that map. -/
theorem Legible.parse_encode_cons {m : TagMap} (h : m.Legible) {rest : Text} (hr : rest.head? ≠ some '\\')
    (lines : List Text) : parse ((m.encode ++ rest) :: lines) = (m.readGroups (lines.flatMap groups)).map some := by
  rw [parse_eq, List.flatMap_cons, h.groups_encode hr, List.singleton_append, if_neg (List.cons_ne_nil _ _), readGroups,
    h.readGroup_encode empty, insertAll_entries]
  rfl

/-- The block of a legible map is parsed to the map. -/
theorem Legible.parse_encode {m : TagMap} (h : m.Legible) : parse [m.encode] = .ok (some m) := by
  have e := h.parse_encode_cons (by simp : ([] : Text).head? ≠ some '\\') []
  rw [List.append_nil] at e
  exact e

/-- Legible maps with the same block are the same. -/
theorem Legible.encode_inj {m m' : TagMap} (h : m.Legible) (h' : m'.Legible) (e : m.encode = m'.encode) : m = m' := by
  have hm := h.parse_encode
  rw [e, h'.parse_encode] at hm
  exact (Option.some.inj (Except.ok.inj hm)).symm

/-- The groups of lines that can be parsed insert the same tags into any map. -/
theorem exists_tags_of_parse {lines : List Text} {read : Option TagMap} (h : parse lines = .ok read) :
    ∃ tags, ∀ n : TagMap, n.readGroups (lines.flatMap groups) = .ok (n.insertAll tags) := by
  obtain ⟨tags, ht, -⟩ := spellAll_of_parse h
  exact ⟨tags, readGroups_of_spellAll ht⟩

end VesselTraffic.TagMap
