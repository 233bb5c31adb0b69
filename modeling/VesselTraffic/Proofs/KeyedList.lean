import VesselTraffic.Text.Basic

/-!
# Lists with distinct keys

Tag maps and registries are lists of pairs whose keys are distinct. In such a list looking a key up is membership, so a reader sees
everything but the order of the entries (`perm_of_lookup_eq`), and leaving entries out by their key leaves the others what they were
(`lookup_filter_key`). Entries may be put behind a list if their keys are new to it (`nodup_append_missing`), and then the list in front
wins (`lookup_append_missing`).
-/

namespace VesselTraffic.KeyedList

variable {κ υ : Type} [BEq κ] [LawfulBEq κ]

/-- Looking a key up in a list whose first key is that one. -/
theorem lookup_cons_self (k : κ) (v : υ) (l : List (κ × υ)) : ((k, v) :: l).lookup k = some v := by
  rw [List.lookup_cons, beq_self_eq_true]

/-- Looking a key up in a list whose first key is another one. -/
theorem lookup_cons_ne {k a : κ} (h : k ≠ a) (v : υ) (l : List (κ × υ)) : ((a, v) :: l).lookup k = l.lookup k := by
  rw [List.lookup_cons, beq_false_of_ne h]

/-- A key has a value exactly if it is among the keys. -/
theorem isSome_lookup_iff {l : List (κ × υ)} {k : κ} : (l.lookup k).isSome ↔ k ∈ l.map Prod.fst := by
  rw [List.lookup_isSome_iff, List.mem_map]
  constructor
  · rintro ⟨e, he, hk⟩
    exact ⟨e, he, (beq_iff_eq.1 hk).symm⟩
  · rintro ⟨e, he, hk⟩
    exact ⟨e, he, beq_iff_eq.2 hk.symm⟩

/-- A key has no value exactly if it is not among the keys. -/
theorem lookup_eq_none_iff {l : List (κ × υ)} {k : κ} : l.lookup k = none ↔ k ∉ l.map Prod.fst := by
  rw [← isSome_lookup_iff, Option.not_isSome_iff_eq_none]

/-- Where keys are distinct, a key has a value exactly if the two are an entry. -/
theorem lookup_eq_some_iff_mem {l : List (κ × υ)} (h : (l.map Prod.fst).Nodup) {k : κ} {v : υ} :
    l.lookup k = some v ↔ (k, v) ∈ l := by
  induction l with
  | nil => simp
  | cons e rest ih =>
    obtain ⟨a, w⟩ := e
    obtain ⟨ha, hrest⟩ := List.nodup_cons.1 h
    by_cases hk : k = a
    · subst hk
      rw [lookup_cons_self, List.mem_cons, Option.some.injEq, Prod.mk.injEq]
      constructor
      · intro hw
        exact Or.inl ⟨rfl, hw.symm⟩
      · rintro (⟨-, hw⟩ | hmem)
        · exact hw.symm
        · exact absurd (List.mem_map_of_mem hmem) ha
    · rw [lookup_cons_ne hk, ih hrest, List.mem_cons]
      constructor
      · exact Or.inr
      · rintro (he | hmem)
        · exact absurd (Prod.mk.inj he).1 hk
        · exact hmem

/-- Lists with distinct keys that give the same values have the same entries, in whatever order. -/
theorem perm_of_lookup_eq {l l' : List (κ × υ)} (h : (l.map Prod.fst).Nodup) (h' : (l'.map Prod.fst).Nodup)
    (e : ∀ k, l.lookup k = l'.lookup k) : l.Perm l' := by
  have hdistinct : ∀ {l : List (κ × υ)}, (l.map Prod.fst).Nodup → l.Nodup := fun hl =>
    List.Pairwise.of_map Prod.fst (fun _ _ hne heq => hne (congrArg Prod.fst heq)) hl
  refine (List.perm_ext_iff_of_nodup (hdistinct h) (hdistinct h')).2 ?_
  rintro ⟨k, v⟩
  rw [← lookup_eq_some_iff_mem h, ← lookup_eq_some_iff_mem h', e]

/-- Leaving entries out by their key takes the values of those keys and no others. -/
theorem lookup_filter_key (p : κ → Bool) (l : List (κ × υ)) (k : κ) :
    (l.filter fun e => p e.1).lookup k = if p k then l.lookup k else none := by
  induction l with
  | nil => simp
  | cons e rest ih =>
    obtain ⟨a, w⟩ := e
    rw [List.filter_cons]
    by_cases hk : k = a
    · subst hk
      cases hp : p k with
      | true => simp
      | false => simpa [hp] using ih
    · cases hp : p a with
      | true => simpa [lookup_cons_ne hk] using ih
      | false => simpa [lookup_cons_ne hk] using ih

/-- Lists with distinct keys and without a key in common make one with distinct keys. -/
theorem nodup_append {l l' : List (κ × υ)} (h : (l.map Prod.fst).Nodup) (h' : (l'.map Prod.fst).Nodup)
    (hapart : ∀ k, l.lookup k = none ∨ l'.lookup k = none) : ((l ++ l').map Prod.fst).Nodup := by
  rw [List.map_append, List.nodup_append]
  refine ⟨h, h', ?_⟩
  rintro k hk _ hk' rfl
  exact (hapart k).elim (fun hn => lookup_eq_none_iff.1 hn hk) (fun hn => lookup_eq_none_iff.1 hn hk')

/-- Behind a list the entries of another one whose keys it lacks are put: a key has its value in the first list, or else the one in the
second. -/
theorem lookup_append_missing (l l' : List (κ × υ)) (k : κ) :
    (l ++ l'.filter fun e => (l.lookup e.1).isNone).lookup k = (l.lookup k).or (l'.lookup k) := by
  rw [List.lookup_append, lookup_filter_key (fun a => (l.lookup a).isNone)]
  cases l.lookup k <;> rfl

/-- Putting the entries behind whose keys a list lacks keeps the keys distinct. -/
theorem nodup_append_missing {l l' : List (κ × υ)} (h : (l.map Prod.fst).Nodup) (h' : (l'.map Prod.fst).Nodup) :
    ((l ++ l'.filter fun e => (l.lookup e.1).isNone).map Prod.fst).Nodup := by
  refine nodup_append h ((List.filter_sublist.map Prod.fst).nodup h') fun k => ?_
  rw [lookup_filter_key (fun a => (l.lookup a).isNone)]
  cases l.lookup k with
  | none => exact Or.inl rfl
  | some v => exact Or.inr rfl

/-- Leaving out what came before leaves the last member out if it is one of the others. -/
theorem eraseDups_concat (l : List κ) (a : κ) : (l ++ [a]).eraseDups = if a ∈ l then l.eraseDups else l.eraseDups ++ [a] := by
  rw [List.eraseDups_append, List.cons_removeAll]
  by_cases h : a ∈ l
  · rw [if_pos h, List.contains_iff_mem.2 h]
    exact List.append_nil _
  · have hc : l.contains a = false := by simpa using h
    rw [if_neg h, hc]
    rfl

end VesselTraffic.KeyedList
