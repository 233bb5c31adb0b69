import VesselTraffic.Proofs.KeyedList
import VesselTraffic.Tracking.Registry

/-!
# Targets of registries

What a registry gives for an MMSI after a target was made or replaced: the new one for that MMSI and what was there for all others.
MMSIs are numbered by their places (`indexOf?_eq_some_iff`); making a target puts its MMSI at the end, if at all, and replacing one
moves nothing, so a number stays with its MMSI.
-/

namespace VesselTraffic.Registry

variable {α : Type}

/-- The MMSIs with a target are those that are contained. -/
theorem contains_eq_true_iff {r : Registry α} {mmsi : Int} : r.contains mmsi = true ↔ mmsi ∈ r.mmsis := by
  rw [contains, List.contains_iff_mem]

/-- The MMSIs with a target are those for which one is found. -/
theorem isSome_find?_iff {r : Registry α} {mmsi : Int} : (r.find? mmsi).isSome ↔ mmsi ∈ r.mmsis :=
  KeyedList.isSome_lookup_iff

/-- A registry contains the MMSIs for which a target is found. -/
theorem contains_eq_isSome (r : Registry α) (mmsi : Int) : r.contains mmsi = (r.find? mmsi).isSome := by
  rw [Bool.eq_iff_iff, contains_eq_true_iff, isSome_find?_iff]

/-- After a target was made for an MMSI, it has the one that it had or else an unknown one, and every other what it had. -/
theorem find?_ensure (r : Registry α) (mmsi k : Int) :
    (r.ensure mmsi).find? k = if k = mmsi then some ((r.find? mmsi).getD Target.unknown) else r.find? k := by
  unfold ensure
  split
  · rename_i h
    split
    · rename_i hk
      obtain ⟨x, hx⟩ := Option.isSome_iff_exists.1 (isSome_find?_iff.2 h)
      rw [hk, hx]
      rfl
    · rfl
  · rename_i h
    have hnone : r.find? mmsi = none := KeyedList.lookup_eq_none_iff.2 h
    have hlookup : (r.entries ++ [(mmsi, Target.unknown)]).lookup k = (r.find? k).or ([(mmsi, Target.unknown)].lookup k) :=
      List.lookup_append
    rw [find?, hlookup]
    split
    · rename_i hk
      rw [hk, hnone, KeyedList.lookup_cons_self]
      rfl
    · rename_i hk
      rw [KeyedList.lookup_cons_ne hk, List.lookup_nil, Option.or_none]

/-- Looking up among entries of which those of an MMSI were replaced. -/
theorem lookup_map_replaceIn (mmsi : Int) (t : Target α) (l : List (Int × Target α)) (k : Int) :
    (l.map (replaceIn mmsi t)).lookup k = if k = mmsi then (l.lookup k).map fun _ => t else l.lookup k := by
  induction l with
  | nil => simp
  | cons e rest ih =>
    obtain ⟨a, x⟩ := e
    have hhead : replaceIn mmsi t (a, x) = (a, if a = mmsi then t else x) := by
      unfold replaceIn
      split <;> rfl
    rw [List.map_cons, hhead]
    by_cases hk : k = a
    · subst hk
      rw [KeyedList.lookup_cons_self, KeyedList.lookup_cons_self]
      split <;> rfl
    · rw [KeyedList.lookup_cons_ne hk, KeyedList.lookup_cons_ne hk]
      exact ih

/-- After the target of an MMSI was replaced, it has the new one, and every other what it had. -/
theorem find?_replace {r : Registry α} {mmsi : Int} (h : mmsi ∈ r.mmsis) (t : Target α) (k : Int) :
    (r.replace mmsi t).find? k = if k = mmsi then some t else r.find? k := by
  have hlookup : (r.replace mmsi t).find? k = if k = mmsi then (r.find? k).map fun _ => t else r.find? k :=
    lookup_map_replaceIn mmsi t r.entries k
  rw [hlookup]
  split
  · rename_i hk
    obtain ⟨x, hx⟩ := Option.isSome_iff_exists.1 (isSome_find?_iff.2 h)
    rw [hk, hx]
    rfl
  · rfl

/-- Making a target puts a new MMSI behind the others. -/
theorem mmsis_ensure (r : Registry α) (mmsi : Int) :
    (r.ensure mmsi).mmsis = if mmsi ∈ r.mmsis then r.mmsis else r.mmsis ++ [mmsi] := by
  unfold ensure
  split
  · rfl
  · exact List.map_append

/-- Replacing a target keeps the MMSIs. -/
theorem mmsis_replace (r : Registry α) (mmsi : Int) (t : Target α) : (r.replace mmsi t).mmsis = r.mmsis := by
  have h : Prod.fst ∘ replaceIn mmsi t = Prod.fst := funext (fst_replaceIn mmsi t)
  rw [mmsis, replace, List.map_map, h]
  rfl

/-- There are as many targets as MMSIs. -/
theorem size_eq_length_mmsis (r : Registry α) : r.size = r.mmsis.length := (List.length_map _).symm

/-- The index of an MMSI is the one place where it is. -/
theorem indexOf?_eq_some_iff {r : Registry α} {mmsi : Int} {i : Nat} : r.indexOf? mmsi = some i ↔ r.mmsis[i]? = some mmsi := by
  rw [indexOf?, List.findIdx?_eq_some_iff_getElem, List.getElem?_eq_some_iff]
  constructor
  · rintro ⟨hi, hm, -⟩
    exact ⟨hi, of_decide_eq_true hm⟩
  · rintro ⟨hi, hm⟩
    refine ⟨hi, decide_eq_true hm, fun j hj hjm => ?_⟩
    have hsame : r.mmsis[j] = r.mmsis[i] := (of_decide_eq_true hjm).trans hm.symm
    exact List.pairwise_iff_getElem.1 r.nodup j i (Nat.lt_trans hj hi) hi hj hsame

/-- The MMSIs with an index are those with a target. -/
theorem exists_indexOf?_iff {r : Registry α} {mmsi : Int} : (∃ i, r.indexOf? mmsi = some i) ↔ mmsi ∈ r.mmsis := by
  simp only [indexOf?_eq_some_iff, List.mem_iff_getElem?]

/-- The target of an MMSI is the one at its index. -/
theorem find?_eq_some_iff {r : Registry α} {mmsi : Int} {t : Target α} :
    r.find? mmsi = some t ↔ ∃ i, r.indexOf? mmsi = some i ∧ r.targets[i]? = some t := by
  rw [find?, KeyedList.lookup_eq_some_iff_mem r.nodup, List.mem_iff_getElem?]
  refine exists_congr fun i => ?_
  rw [indexOf?_eq_some_iff, mmsis, targets, List.getElem?_map, List.getElem?_map]
  cases r.entries[i]? with
  | none => simp
  | some e => simp [Prod.ext_iff]

/-- Every target is that of an MMSI. -/
theorem exists_find?_of_mem_targets {r : Registry α} {t : Target α} (h : t ∈ r.targets) : ∃ mmsi, r.find? mmsi = some t := by
  obtain ⟨⟨mmsi, _⟩, he, rfl⟩ := List.mem_map.1 h
  exact ⟨mmsi, (KeyedList.lookup_eq_some_iff_mem r.nodup).2 he⟩

/-- A registry is made of its MMSIs and the targets that are found for them. -/
theorem entries_eq (r : Registry α) : r.entries = r.mmsis.map fun k => (k, (r.find? k).getD Target.unknown) := by
  rw [mmsis, List.map_map]
  refine (List.map_id r.entries).symm.trans (List.map_congr_left ?_)
  rintro ⟨k, t⟩ he
  have hfind : r.find? k = some t := (KeyedList.lookup_eq_some_iff_mem r.nodup).2 he
  rw [Function.comp_apply, hfind]
  rfl

/-- Registries with the same MMSIs in the same order and the same targets for them are the same. -/
theorem ext_find? {r r' : Registry α} (hm : r.mmsis = r'.mmsis) (hf : ∀ k, r.find? k = r'.find? k) : r = r' := by
  have hentries : r.entries = r'.entries := by
    rw [entries_eq, entries_eq, hm]
    exact List.map_congr_left fun k _ => by rw [hf k]
  obtain ⟨l, hl⟩ := r
  obtain ⟨l', hl'⟩ := r'
  cases hentries
  rfl

end VesselTraffic.Registry
