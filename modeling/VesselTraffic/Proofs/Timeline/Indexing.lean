import Mathlib.Data.List.TakeWhile
import VesselTraffic.Timeline.Store

/-!
# Places in an index

In an index in ascending order halving ends where the times begin that are not before the one that is sought: what is in front of its
place are the times before it and the rest are the others (`take_placeOf`, `drop_placeOf`). So a time that is later than the last has
its place at the end, and adding it there at once is adding it at its place (`add_eq_insertAt`).
-/

namespace VesselTraffic.TimeIndex

variable {times : Array Int} {time : Int} {lo hi : Nat}

/-- Two places of an index that enclose a time: all in front of the first is before it, and nothing from the second on is. -/
structure Encloses (times : Array Int) (time : Int) (lo hi : Nat) : Prop where
  before : ∀ i (h : i < times.size), i < lo → times[i] < time
  after : ∀ i (h : i < times.size), hi ≤ i → time ≤ times[i]

/-- Earlier places of an ascending index hold earlier times. -/
theorem getElem_le_getElem (hs : times.toList.Pairwise (· < ·)) {i j : Nat} (hij : i ≤ j) (hj : j < times.size) :
    times[i] ≤ times[j] := by
  rcases Nat.lt_or_eq_of_le hij with hlt | rfl
  · have := List.pairwise_iff_getElem.1 hs i j (by simp; omega) (by simpa using hj) hlt
    simp only [Array.getElem_toList] at this
    omega
  · exact Int.le_refl _

/-- If the time between two places is before the one that is sought, the later half encloses it. -/
theorem Encloses.later (hs : times.toList.Pairwise (· < ·)) (h : Encloses times time lo hi) {mid : Nat} (hmid : mid < times.size)
    (hbefore : times[mid] < time) : Encloses times time (mid + 1) hi := by
  refine ⟨fun i hi hlt => ?_, h.after⟩
  have := getElem_le_getElem hs (Nat.le_of_lt_succ hlt) hmid
  omega

/-- If the time between two places is not before the one that is sought, the earlier half encloses it. -/
theorem Encloses.earlier (hs : times.toList.Pairwise (· < ·)) (h : Encloses times time lo hi) {mid : Nat} (hmid : mid < times.size)
    (hnot : ¬times[mid] < time) : Encloses times time lo mid := by
  refine ⟨h.before, fun i hi hle => ?_⟩
  have := getElem_le_getElem hs hle hi
  omega

/-- Halving between two places that enclose a time ends at one that does. -/
theorem Encloses.bisect (hs : times.toList.Pairwise (· < ·)) (h : Encloses times time lo hi) (hle : lo ≤ hi)
    (hsize : hi ≤ times.size) :
    Encloses times time (TimeIndex.bisect times time lo hi hsize) (TimeIndex.bisect times time lo hi hsize) := by
  fun_induction TimeIndex.bisect times time lo hi hsize with
  | case1 lo hi hsize hlt mid hmid hbefore ih => exact ih (h.later hs hmid hbefore) (by omega)
  | case2 lo hi hsize hlt mid hmid hnot ih => exact ih (h.earlier hs hmid hnot) (by omega)
  | case3 lo hi hsize hnot =>
    -- Nothing is left between the two places.
    obtain rfl : lo = hi := by omega
    exact h

/-- The place of a time in an ascending index encloses it. -/
theorem encloses_placeOf (hs : times.toList.Pairwise (· < ·)) : Encloses times time (placeOf times time) (placeOf times time) := by
  refine Encloses.bisect hs ⟨?_, ?_⟩ (Nat.zero_le _) (Nat.le_refl _)
  · intro i _ hlt
    omega
  · intro i hi hle
    omega

/-- The times in front of the place of a time are before it. -/
theorem lt_of_mem_take_placeOf (hs : times.toList.Pairwise (· < ·)) {x : Int} (hx : x ∈ times.toList.take (placeOf times time)) :
    x < time := by
  obtain ⟨i, hi, rfl⟩ := List.mem_iff_getElem.1 hx
  simp only [List.length_take, Array.length_toList] at hi
  simp only [List.getElem_take, Array.getElem_toList]
  exact (encloses_placeOf hs).before i (by omega) (by omega)

/-- The times from the place of a time on are not before it. -/
theorem le_of_mem_drop_placeOf (hs : times.toList.Pairwise (· < ·)) {x : Int} (hx : x ∈ times.toList.drop (placeOf times time)) :
    time ≤ x := by
  obtain ⟨i, hi, rfl⟩ := List.mem_iff_getElem.1 hx
  simp only [List.length_drop, Array.length_toList] at hi
  simp only [List.getElem_drop, Array.getElem_toList]
  exact (encloses_placeOf hs).after _ (by omega) (by omega)

/-- In front of the place of a time are the first times of the index that are before it. -/
theorem take_placeOf (hs : times.toList.Pairwise (· < ·)) (time : Int) :
    times.toList.take (placeOf times time) = times.toList.takeWhile (· < time) := by
  have hfront : ∀ x ∈ times.toList.take (placeOf times time), decide (x < time) = true := fun x hx =>
    decide_eq_true (lt_of_mem_take_placeOf hs hx)
  have hrest : (times.toList.drop (placeOf times time)).takeWhile (· < time) = [] := by
    rw [List.takeWhile_eq_nil_iff]
    intro hpos
    have := le_of_mem_drop_placeOf hs (List.getElem_mem hpos)
    simpa using this
  have hsplit := congrArg (List.takeWhile (· < time)) (List.take_append_drop (placeOf times time) times.toList)
  rw [List.takeWhile_append_of_pos hfront, hrest, List.append_nil] at hsplit
  exact hsplit

/-- From the place of a time on are the times of the index without those first ones. -/
theorem drop_placeOf (hs : times.toList.Pairwise (· < ·)) (time : Int) :
    times.toList.drop (placeOf times time) = times.toList.dropWhile (· < time) := by
  have hsplit : times.toList.takeWhile (· < time) ++ times.toList.drop (placeOf times time) = times.toList := by
    rw [← take_placeOf hs, List.take_append_drop]
  exact List.append_cancel_left (hsplit.trans List.takeWhile_append_dropWhile.symm)

/-- The place of a time is the number of times before it. -/
theorem placeOf_eq (hs : times.toList.Pairwise (· < ·)) (time : Int) :
    placeOf times time = (times.toList.takeWhile (· < time)).length := by
  rw [← take_placeOf hs, List.length_take, Array.length_toList, Nat.min_eq_left (placeOf_le times time)]

example : placeOf #[10, 20, 30, 40] 30 = 2 ∧ placeOf #[10, 20, 30, 40] 5 = 0 ∧ placeOf #[10, 20, 30, 40] 45 = 4 := by decide +kernel

/-- The times of an index with a new one at its place. -/
theorem toList_insertAt (times : Array Int) (time : Int) :
    (insertAt times time).toList = times.toList.insertIdx (placeOf times time) time :=
  Array.toList_insertIdx _

/-- A new time that is later than all others goes to the end. -/
theorem insertAt_of_lt (hs : times.toList.Pairwise (· < ·)) (h : ∀ x ∈ times.toList, x < time) :
    insertAt times time = times.push time := by
  have hend : placeOf times time = times.toList.length := by
    rw [placeOf_eq hs, List.takeWhile_eq_self_iff.2 fun x hx => decide_eq_true (h x hx)]
  apply Array.toList_inj.1
  rw [toList_insertAt, hend, List.insertIdx_length_self, Array.toList_push]

/-- Whether a new time goes to the end at once or to its place makes no difference. -/
theorem add_eq_insertAt (hs : times.toList.Pairwise (· < ·)) (time : Int) : add times time = insertAt times time := by
  unfold add
  split
  · rename_i hempty
    rw [Array.back?_eq_none_iff] at hempty
    subst hempty
    refine (insertAt_of_lt hs ?_).symm
    intro x hx
    cases hx
  · rename_i last hlast
    split
    · rename_i hlt
      refine (insertAt_of_lt hs ?_).symm
      intro x hx
      rw [← Array.getLast?_toList, List.getLast?_eq_some_iff] at hlast
      obtain ⟨front, hfront⟩ := hlast
      rw [hfront] at hx hs
      rcases List.mem_append.1 hx with hx | hx
      · exact Int.lt_trans ((List.pairwise_append.1 hs).2.2 x hx last (List.mem_singleton.2 rfl)) hlt
      · rw [List.mem_singleton.1 hx]
        exact hlt
    · rfl

end VesselTraffic.TimeIndex
