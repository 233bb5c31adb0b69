import VesselTraffic.Chart.Drawing
import VesselTraffic.Proofs.Result
import VesselTraffic.Proofs.Tracking.Registry

/-!
# Marks of drawings

A mark in a drawing is where a known vessel is shown at the time that is asked about, and it looks different exactly if there is an
extent that does not contain it (`mark_of_mem_ofTracker`).
-/

namespace VesselTraffic.Drawing

variable {α : Type} [Navigation α] {extent : Option (Extent α)} {moment : Option Moment} {place k : Nat} {p : Position α}
  {outside : Bool} {strokes : List (Stroke α)}

/-- A mark that is made for a target is where the target is shown at the time that is asked about. -/
theorem mark_of_mem_mark {x : Target α} (h : mark extent moment place x = .ok strokes) (hm : .mark k p outside ∈ strokes) :
    ∃ time s, moment = some (.ok time) ∧ x.timeline.query time = .ok s ∧ s.position = p ∧
      outside = extent.any fun e => !e.contains p := by
  cases moment with
  | none =>
    cases h
    cases hm
  | some moment =>
    cases moment with
    | error e => cases h
    | ok time =>
      rw [mark] at h
      simp only [markAt] at h
      cases hq : x.timeline.query time with
      | ok s =>
        rw [hq] at h
        cases h
        cases List.mem_singleton.1 hm
        exact ⟨time, s, rfl, hq, rfl, rfl⟩
      | error e =>
        rw [hq] at h
        cases e with
        | noPriorSample _ =>
          cases h
          cases hm
        | number e => cases h

/-- A mark among the tracks of targets is made for one of them. -/
theorem exists_mark_of_mem_tracks {xs : List (Target α)} (h : tracks extent moment place xs = .ok strokes)
    (hm : .mark k p outside ∈ strokes) :
    ∃ x ∈ xs, ∃ place' more, mark extent moment place' x = .ok more ∧ .mark k p outside ∈ more := by
  induction xs generalizing place strokes with
  | nil =>
    cases h
    cases hm
  | cons x rest ih =>
    obtain ⟨line, hline, h⟩ := bind_eq_ok_iff.1 h
    obtain ⟨own, hown, h⟩ := bind_eq_ok_iff.1 h
    obtain ⟨others, hothers, rfl⟩ := map_eq_ok_iff.1 h
    obtain ⟨name, -, rfl⟩ := map_eq_ok_iff.1 hline
    rcases List.mem_cons.1 hm with hm | hm
    · cases hm
    · rcases List.mem_append.1 hm with hm | hm
      · exact ⟨x, List.mem_cons_self, place, own, hown, hm⟩
      · obtain ⟨y, hy, hmade⟩ := ih hothers hm
        exact ⟨y, List.mem_cons_of_mem x hy, hmade⟩

omit [Navigation α] in
/-- There are no marks behind the tracks. -/
theorem mark_not_mem_surroundings (n : Nat) : .mark k p outside ∉ surroundings extent n := by
  unfold surroundings
  cases extent <;> simp only <;> split <;> simp

/-- A mark of a drawing is where a known vessel is shown at the time that is asked about, and looks different exactly if there is an
extent that does not contain it. -/
theorem mark_of_mem_ofTracker {t : Tracker α} (h : ofTracker t moment = .ok strokes) (hm : .mark k p outside ∈ strokes) :
    ∃ time mmsi x s, moment = some (.ok time) ∧ t.find? mmsi = some x ∧ x.timeline.query time = .ok s ∧ s.position = p ∧
      outside = t.extent.any fun e => !e.contains p := by
  obtain ⟨made, hmade, rfl⟩ := map_eq_ok_iff.1 h
  have hm := (List.mem_append.1 hm).resolve_right (mark_not_mem_surroundings _)
  obtain ⟨x, hx, place, own, hown, hm⟩ := exists_mark_of_mem_tracks hmade hm
  obtain ⟨time, s, hmoment, hquery, hp, houtside⟩ := mark_of_mem_mark hown hm
  have hknown : x ∈ t.registry.targets := (List.mem_filter.1 (List.mem_mergeSort.1 hx)).1
  obtain ⟨mmsi, hfind⟩ := Registry.exists_find?_of_mem_targets hknown
  exact ⟨time, mmsi, x, s, hmoment, hfind, hquery, hp, houtside⟩

end VesselTraffic.Drawing
