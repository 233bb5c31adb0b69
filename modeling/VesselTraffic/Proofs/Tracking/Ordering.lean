import VesselTraffic.Proofs.Tracking.Whereabouts

/-!
# Targets in the order of their vessels

A target with a sample was sent a message, so it has the MMSI that it is kept under, and no other target has the same one
(`exists_mmsi_of_mem_located`, `nodup_mmsi_located`). So sorting such targets by MMSI compares nothing but different numbers, and it
gives the same list in whatever order the targets were taken (`mergeSort_eq_of_perm`): the one strictly ascending list with those
members (`positioned_ascending`, `Target.eq_of_ascending`).
-/

namespace VesselTraffic

variable {α : Type}

namespace Target

/-- A target whose MMSI is less than that of another one. -/
def Before (x y : Target α) : Prop := ∃ m n, x.mmsi = some m ∧ y.mmsi = some n ∧ m < n

/-- A target is not before one that is before it. -/
theorem Before.asymm {x y : Target α} (h : x.Before y) : ¬y.Before x := by
  obtain ⟨m, n, hx, hy, hlt⟩ := h
  rintro ⟨n', m', hy', hx', hlt'⟩
  cases hx.symm.trans hx'
  cases hy.symm.trans hy'
  omega

instance : Std.Irrefl (Before (α := α)) := ⟨fun _ h => h.asymm h⟩

/-- Strictly ascending lists with the same members are the same. -/
theorem eq_of_ascending {xs ys : List (Target α)} (hx : xs.Pairwise Before) (hy : ys.Pairwise Before) (h : ∀ x, x ∈ xs ↔ x ∈ ys) :
    xs = ys :=
  ((List.perm_ext_iff_of_nodup hx.nodup hy.nodup).2 h).eq_of_pairwise (fun _ _ _ _ hab hba => absurd hba hab.asymm) hx hy

/-- A target with a position is one with a sample. -/
theorem hasPosition_iff {x : Target α} : x.hasPosition = true ↔ x.timeline.samples ≠ [] := by
  simp [hasPosition]

end Target

namespace Tracker

/-! ## Sorting by MMSI -/

/-- Targets that are in order with a third one are in order. -/
theorem mmsiAtMost_trans (a b c : Target α) (hab : mmsiAtMost a b = true) (hbc : mmsiAtMost b c = true) : mmsiAtMost a c = true := by
  unfold mmsiAtMost at *
  cases ha : a.mmsi <;> cases hb : b.mmsi <;> cases hc : c.mmsi <;> simp_all
  omega

/-- Two targets are in order in one way or the other. -/
theorem mmsiAtMost_total (a b : Target α) : (mmsiAtMost a b || mmsiAtMost b a) = true := by
  unfold mmsiAtMost
  cases a.mmsi <;> cases b.mmsi <;> simp
  omega

variable {xs ys : List (Target α)}

/-- Targets with different MMSIs are in strictly ascending order once they are sorted. -/
theorem mergeSort_ascending (hsome : ∀ x ∈ xs, ∃ m, x.mmsi = some m) (hnodup : (xs.map Target.mmsi).Nodup) :
    (xs.mergeSort mmsiAtMost).Pairwise Target.Before := by
  have hsorted : (xs.mergeSort mmsiAtMost).Pairwise fun x y => mmsiAtMost x y = true :=
    List.pairwise_mergeSort mmsiAtMost_trans mmsiAtMost_total xs
  have hdistinct : (xs.mergeSort mmsiAtMost).Pairwise fun x y => x.mmsi ≠ y.mmsi :=
    List.pairwise_map.1 (((List.mergeSort_perm xs mmsiAtMost).map Target.mmsi).nodup_iff.2 hnodup)
  refine (hsorted.and hdistinct).imp_of_mem fun {x y} hx hy h => ?_
  obtain ⟨hle, hne⟩ := h
  obtain ⟨m, hm⟩ := hsome x (List.mem_mergeSort.1 hx)
  obtain ⟨n, hn⟩ := hsome y (List.mem_mergeSort.1 hy)
  rw [mmsiAtMost, hm, hn, decide_eq_true_iff] at hle
  refine ⟨m, n, hm, hn, lt_of_le_of_ne hle fun heq => hne ?_⟩
  rw [hm, hn, heq]

/-- Targets with different MMSIs are sorted into the same list in whatever order they were taken. -/
theorem mergeSort_eq_of_perm (h : xs.Perm ys) (hsome : ∀ x ∈ xs, ∃ m, x.mmsi = some m) (hnodup : (xs.map Target.mmsi).Nodup) :
    xs.mergeSort mmsiAtMost = ys.mergeSort mmsiAtMost := by
  refine Target.eq_of_ascending (mergeSort_ascending hsome hnodup) (mergeSort_ascending ?_ ?_) fun x => ?_
  · exact fun x hx => hsome x (h.mem_iff.2 hx)
  · exact (h.map Target.mmsi).nodup_iff.1 hnodup
  · rw [List.mem_mergeSort, List.mem_mergeSort, h.mem_iff]

/-! ## Targets with a sample -/

/-- The targets with a sample, in the order in which they were first seen. -/
def located (t : Tracker α) : List (Target α) := t.targets.filter Target.hasPosition

/-- The targets with a sample by MMSI are among the targets. -/
theorem mem_positioned_iff {t : Tracker α} {x : Target α} : x ∈ t.positioned ↔ x ∈ t.targets ∧ x.timeline.samples ≠ [] := by
  rw [positioned, List.mem_mergeSort, List.mem_filter, Target.hasPosition_iff]

variable [Navigation α] (keep : Retention α) (operations : List (Operation α))

/-- A target with a sample has the MMSI that it is kept under. -/
theorem mmsi_of_samples_ne_nil {mmsi : Int} {x : Target α} (hx : ((fresh keep).run operations).find? mmsi = some x)
    (hs : x.timeline.samples ≠ []) : x.mmsi = some mmsi := by
  obtain ⟨s, hs⟩ := List.exists_mem_of_ne_nil _ hs
  have hregistered := registered_run keep operations
  have htarget := target_eq_ok_iff.2 hx
  obtain ⟨hrun, harrivals⟩ := (fresh keep).run_eq_runSteps operations
  rw [hrun] at hx
  obtain ⟨r, hr, hmmsi, -⟩ := reported_runSteps keep _ hx hs
  rw [← harrivals] at hr
  -- The message that brought the sample is one of the vessel, so the target is not without an MMSI.
  refine (hregistered.own mmsi x htarget).resolve_left fun hnone => ?_
  obtain ⟨m, hm, hmr⟩ := List.mem_filterMap.1 hr
  obtain ⟨rfl, -⟩ := Message.validReport?_eq_some_iff.1 hmr
  exact (hregistered.none_iff mmsi x htarget).1 hnone _ (Arrival.mem_messages_iff.1 hm) hmmsi

/-- Every target with a sample has an MMSI. -/
theorem exists_mmsi_of_mem_located {x : Target α} (hx : x ∈ ((fresh keep).run operations).located) : ∃ m, x.mmsi = some m := by
  obtain ⟨hmem, hposition⟩ := List.mem_filter.1 hx
  obtain ⟨mmsi, hfind⟩ := Registry.exists_find?_of_mem_targets hmem
  exact ⟨mmsi, mmsi_of_samples_ne_nil keep operations hfind (Target.hasPosition_iff.1 hposition)⟩

/-- No two targets with a sample have the same MMSI. -/
theorem nodup_mmsi_located : (((fresh keep).run operations).located.map Target.mmsi).Nodup := by
  have hown := @mmsi_of_samples_ne_nil _ _ keep operations
  generalize (fresh keep).run operations = t at hown ⊢
  have hkeys : t.located.map Target.mmsi = (t.registry.entries.filter fun e => e.2.hasPosition).map fun e => some e.1 := by
    rw [located, targets, Registry.targets, List.filter_map, List.map_map]
    refine List.map_congr_left fun e he => ?_
    obtain ⟨hmem, hposition⟩ := List.mem_filter.1 he
    exact hown ((KeyedList.lookup_eq_some_iff_mem t.registry.nodup).2 hmem) (Target.hasPosition_iff.1 hposition)
  have hsublist := (List.filter_sublist (p := fun e => e.2.hasPosition) (l := t.registry.entries)).map Prod.fst
  have hnodup := (t.registry.nodup.sublist hsublist).map (Option.some_injective Int)
  rw [List.map_map] at hnodup
  rw [hkeys]
  exact hnodup

/-- The targets with a sample by MMSI are in strictly ascending order. -/
theorem positioned_ascending : ((fresh keep).run operations).positioned.Pairwise Target.Before :=
  mergeSort_ascending (fun _ => exists_mmsi_of_mem_located keep operations) (nodup_mmsi_located keep operations)

/-- The targets with a sample by MMSI are the same in whatever order the targets were taken. -/
theorem positioned_eq_of_perm {u : Tracker α} (h : u.targets.Perm ((fresh keep).run operations).targets) :
    u.positioned = ((fresh keep).run operations).positioned :=
  (mergeSort_eq_of_perm (h.symm.filter Target.hasPosition) (fun _ => exists_mmsi_of_mem_located keep operations)
    (nodup_mmsi_located keep operations)).symm

end Tracker
end VesselTraffic
