import Mathlib.Data.List.Sort
import VesselTraffic.Timeline.Basic

/-!
# Timelines as finite maps

A timeline is determined by the samples that it finds at each time, and putting a sample changes what is found at its time and
nowhere else. So the order in which samples were put matters only among those of one time, of which the last stays
(`foldl_put_congr`); whether a sample went to the end at once or to its place makes no difference (`putLast_eq_place`).
-/

namespace VesselTraffic.Timeline

variable {α : Type}

/-- In ascending samples the first one comes before all others. -/
theorem ascending_cons {s : Sample α} {l : List (Sample α)} :
    Ascending (s :: l) ↔ (∀ x ∈ l, s.timestamp < x.timestamp) ∧ Ascending l :=
  List.pairwise_cons

/-- A sample that is later than all others is put at the end. -/
theorem place_of_last {s : Sample α} {l : List (Sample α)} (h : ∀ x ∈ l, x.timestamp < s.timestamp) : place s l = l ++ [s] := by
  induction l with
  | nil => rfl
  | cons x rest ih =>
    have hx := h x List.mem_cons_self
    rw [place, if_neg (by omega), if_neg (by omega), ih fun y hy => h y (List.mem_cons_of_mem _ hy)]
    rfl

/-- Putting a sample at the end at once is putting it at its place. -/
theorem putLast_eq_place (s : Sample α) {l : List (Sample α)} (h : Ascending l) : putLast s l = place s l := by
  unfold putLast
  split
  · rename_i hl
    rw [List.getLast?_eq_none_iff.1 hl]
    rfl
  · rename_i last hl
    split
    · rename_i hlt
      obtain ⟨front, rfl⟩ := List.getLast?_eq_some_iff.1 hl
      refine (place_of_last ?_).symm
      intro x hx
      rcases List.mem_append.1 hx with hx | hx
      · exact Int.lt_trans ((List.pairwise_append.1 h).2.2 x hx last (List.mem_singleton.2 rfl)) hlt
      · rw [List.mem_singleton.1 hx]
        exact hlt
    · rfl

/-- Finding among samples of which one was put at its place. -/
theorem find?_place {s : Sample α} {l : List (Sample α)} (h : Ascending l) (time : Int) :
    ((place s l).find? fun x => x.timestamp = time) =
      if s.timestamp = time then some s else l.find? fun x => x.timestamp = time := by
  induction l with
  | nil =>
    rw [place, List.find?_cons, List.find?_nil]
    by_cases hs : s.timestamp = time <;> simp [hs]
  | cons x rest ih =>
    obtain ⟨-, hrest⟩ := ascending_cons.1 h
    rw [place]
    split
    · rw [List.find?_cons]
      by_cases hs : s.timestamp = time <;> simp [hs]
    · split
      · rename_i heq
        rw [List.find?_cons, List.find?_cons, ← heq]
        by_cases hs : s.timestamp = time <;> simp [hs]
      · rename_i hlt hne
        rw [List.find?_cons, ih hrest, List.find?_cons]
        by_cases hx : x.timestamp = time
        · have hs : s.timestamp ≠ time := fun e => hne (e.trans hx.symm)
          simp [hx, hs]
        · simp [hx]

/-- A timeline finds a sample that was put at its time, and at every other time what it found before. -/
theorem find?_put (t : Timeline α) (s : Sample α) (time : Int) :
    (t.put s).find? time = if s.timestamp = time then some s else t.find? time := by
  have hput : (t.put s).find? time = (putLast s t.samples).find? fun x => x.timestamp = time := rfl
  rw [hput, putLast_eq_place s t.ascending]
  exact find?_place t.ascending time

/-- The samples of a timeline are those that it finds at their time. -/
theorem mem_samples_iff {t : Timeline α} {s : Sample α} : s ∈ t.samples ↔ t.find? s.timestamp = some s := by
  obtain ⟨l, h⟩ := t
  rw [find?]
  induction l with
  | nil => simp
  | cons x rest ih =>
    obtain ⟨hx, hrest⟩ := ascending_cons.1 h
    rw [List.mem_cons, List.find?_cons]
    by_cases hs : x.timestamp = s.timestamp
    · have hnot : s ∉ rest := fun hm => by have := hx s hm; omega
      simp [hs, hnot, eq_comm]
    · have hne : s ≠ x := fun e => hs (e ▸ rfl)
      simp only [hs, hne, decide_false, false_or]
      exact ih hrest

/-- Timelines that find the same at each time are the same. -/
theorem eq_of_find?_eq {t u : Timeline α} (h : ∀ time, t.find? time = u.find? time) : t = u := by
  have hirrefl : Std.Irrefl fun a b : Sample α => a.timestamp < b.timestamp := ⟨fun a => Int.lt_irrefl a.timestamp⟩
  have hantisymm : Std.Antisymm fun a b : Sample α => a.timestamp < b.timestamp :=
    ⟨fun a b hab hba => absurd (Int.lt_trans hab hba) (Int.lt_irrefl a.timestamp)⟩
  have hmem : ∀ s, s ∈ t.samples ↔ s ∈ u.samples := fun s => by rw [mem_samples_iff, mem_samples_iff, h]
  have hsamples : t.samples = u.samples := List.Pairwise.eq_of_mem_iff t.ascending u.ascending hmem
  obtain ⟨l, hl⟩ := t
  obtain ⟨l', hl'⟩ := u
  cases hsamples
  rfl

/-- Of samples that were put in order, the last one of a time is found at that time. -/
theorem find?_foldl_put (l : List (Sample α)) (t : Timeline α) (time : Int) :
    (l.foldl put t).find? time = ((l.filter fun s => s.timestamp = time).getLast?).or (t.find? time) := by
  induction l generalizing t with
  | nil => rfl
  | cons s rest ih =>
    rw [List.foldl_cons, ih, find?_put, List.filter_cons]
    by_cases hs : s.timestamp = time
    · rw [if_pos hs, if_pos (decide_eq_true hs), List.getLast?_cons]
      cases (rest.filter fun s => s.timestamp = time).getLast? <;> rfl
    · rw [if_neg hs, if_neg (by simpa using hs)]

/-- Samples that have the same ones of each time in the same order make the same timeline. -/
theorem foldl_put_congr {l l' : List (Sample α)}
    (h : ∀ time, (l.filter fun s => s.timestamp = time) = l'.filter fun s => s.timestamp = time) (t : Timeline α) :
    l.foldl put t = l'.foldl put t :=
  eq_of_find?_eq fun time => by rw [find?_foldl_put, find?_foldl_put, h time]

/-- Samples that are put again in the same order change nothing. -/
theorem foldl_put_again (l : List (Sample α)) (t : Timeline α) : l.foldl put (l.foldl put t) = l.foldl put t :=
  eq_of_find?_eq fun time => by
    rw [find?_foldl_put, find?_foldl_put]
    cases (l.filter fun s => s.timestamp = time).getLast? <;> rfl

/-- Without cutoffs samples are just put at their times. -/
theorem foldl_insert_keepAll (l : List (Sample α)) (t : Timeline α) : l.foldl (insert Retention.keepAll) t = l.foldl put t := rfl

end VesselTraffic.Timeline
