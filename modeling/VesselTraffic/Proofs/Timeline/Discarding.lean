import VesselTraffic.Proofs.Timeline.Querying

/-!
# Cutoffs

A cutoff takes the samples that are older than it from a timeline and leaves what is found at every other time (`find?_discardBefore`).
As samples ascend, those in front of the first one that is not older are all that are older, and counting them gives the places of the
neighbours of a time (`before?_eq`, `after?_eq`).
-/

namespace VesselTraffic.Timeline

variable {α : Type}

/-- What a timeline finds at a time is one of its samples, with that time. -/
theorem find?_eq_some_iff {t : Timeline α} {time : Int} {x : Sample α} :
    t.find? time = some x ↔ x ∈ t.samples ∧ x.timestamp = time := by
  constructor
  · intro h
    exact ⟨List.mem_of_find?_eq_some h, by simpa using List.find?_some h⟩
  · rintro ⟨hx, rfl⟩
    exact mem_samples_iff.1 hx

/-- A timeline finds something at its times and nowhere else. -/
theorem isSome_find?_iff {t : Timeline α} {time : Int} : (t.find? time).isSome ↔ time ∈ t.times := by
  rw [Option.isSome_iff_exists, times, List.mem_map]
  exact exists_congr fun x => find?_eq_some_iff

/-- What holds of the times of all samples holds of every time at which something is found. -/
theorem forall_isSome_find?_iff {t : Timeline α} {p : Int → Prop} :
    (∀ c, (t.find? c).isSome → p c) ↔ ∀ x ∈ t.samples, p x.timestamp := by
  constructor
  · intro h x hx
    exact h _ (isSome_find?_iff.2 (List.mem_map_of_mem hx))
  · intro h c hc
    obtain ⟨x, hx, rfl⟩ := List.mem_map.1 (isSome_find?_iff.1 hc)
    exact h x hx

/-- A timeline has its times in ascending order. -/
theorem pairwise_times (t : Timeline α) : t.times.Pairwise (· < ·) := List.pairwise_map.2 t.ascending

/-- Of ascending samples, those in front of the first one that is not before a cutoff are all that are before it. -/
theorem takeWhile_eq_filter {l : List (Sample α)} (h : Ascending l) (cutoff : Int) :
    (l.takeWhile fun x => x.timestamp < cutoff) = l.filter fun x => x.timestamp < cutoff := by
  induction l with
  | nil => rfl
  | cons x rest ih =>
    obtain ⟨hx, hrest⟩ := ascending_cons.1 h
    rw [List.takeWhile_cons, List.filter_cons]
    split
    · rw [ih hrest]
    · rename_i hle
      have hlater : ∀ y ∈ rest, ¬decide (y.timestamp < cutoff) = true := by
        intro y hy
        have := hx y hy
        simp only [decide_eq_true_eq] at hle ⊢
        omega
      exact (List.filter_eq_nil_iff.2 hlater).symm

/-- Of ascending samples, those from the first one on that is not before a cutoff are all that are not before it. -/
theorem dropWhile_eq_filter {l : List (Sample α)} (h : Ascending l) (cutoff : Int) :
    (l.dropWhile fun x => x.timestamp < cutoff) = l.filter fun x => cutoff ≤ x.timestamp := by
  induction l with
  | nil => rfl
  | cons x rest ih =>
    obtain ⟨hx, hrest⟩ := ascending_cons.1 h
    rw [List.dropWhile_cons, List.filter_cons]
    split
    · rename_i hlt
      rw [ih hrest, if_neg]
      simp only [decide_eq_true_eq] at hlt ⊢
      omega
    · rename_i hle
      simp only [decide_eq_true_eq] at hle
      have hlater : ∀ y ∈ rest, decide (cutoff ≤ y.timestamp) = true := by
        intro y hy
        have := hx y hy
        simp only [decide_eq_true_eq]
        omega
      rw [if_pos (by simp only [decide_eq_true_eq]; omega), List.filter_eq_self.2 hlater]

/-- Of a timeline without the samples that are older than a time, the samples are those that are not. -/
theorem mem_discardBefore_iff {t : Timeline α} {cutoff : Int} {x : Sample α} :
    x ∈ (t.discardBefore cutoff).samples ↔ x ∈ t.samples ∧ cutoff ≤ x.timestamp :=
  mem_dropWhile_iff t.ascending

/-- The samples after a cutoff are those that are not older. -/
theorem samples_discardBefore (t : Timeline α) (cutoff : Int) :
    (t.discardBefore cutoff).samples = t.samples.filter fun x => cutoff ≤ x.timestamp :=
  dropWhile_eq_filter t.ascending cutoff

/-- A cutoff takes what is found at the times before it, and nothing else. -/
theorem find?_discardBefore (t : Timeline α) (cutoff time : Int) :
    (t.discardBefore cutoff).find? time = if time < cutoff then none else t.find? time := by
  apply Option.ext
  intro x
  rw [find?_eq_some_iff, mem_discardBefore_iff]
  split
  · rename_i hlt
    simp only [reduceCtorEq, iff_false]
    rintro ⟨⟨-, hle⟩, rfl⟩
    omega
  · rename_i hle
    rw [find?_eq_some_iff]
    constructor
    · rintro ⟨⟨hx, -⟩, htime⟩
      exact ⟨hx, htime⟩
    · rintro ⟨hx, rfl⟩
      exact ⟨⟨hx, by omega⟩, rfl⟩

/-- The times from a cutoff on are those that are not before it. -/
theorem times_discardBefore (t : Timeline α) (cutoff : Int) : (t.discardBefore cutoff).times = t.times.dropWhile (· < cutoff) := by
  rw [times, times, List.dropWhile_map]
  rfl

/-- The times in front of the first one that is not before a cutoff are those that are before it. -/
theorem mem_takeWhile_times_iff {t : Timeline α} {cutoff time : Int} :
    time ∈ t.times.takeWhile (· < cutoff) ↔ time ∈ t.times ∧ time < cutoff := by
  rw [times, List.takeWhile_map, List.mem_map, List.mem_map]
  constructor
  · rintro ⟨x, hx, rfl⟩
    obtain ⟨hmem, hlt⟩ := (mem_takeWhile_iff t.ascending).1 hx
    exact ⟨⟨x, hmem, rfl⟩, hlt⟩
  · rintro ⟨⟨x, hx, rfl⟩, hlt⟩
    exact ⟨x, (mem_takeWhile_iff t.ascending).2 ⟨hx, hlt⟩, rfl⟩

/-- The samples that are older than a time are counted by their times. -/
theorem countBefore_eq (t : Timeline α) (cutoff : Int) : t.countBefore cutoff = (t.times.takeWhile (· < cutoff)).length := by
  rw [times, List.takeWhile_map, List.length_map]
  rfl

/-- The sample that is found before a time is the last one of those that are older. -/
theorem before?_eq (t : Timeline α) (time : Int) :
    t.before? time = if t.countBefore time = 0 then none else t.samples[t.countBefore time - 1]? := by
  have hsplit := List.takeWhile_append_dropWhile (p := fun s => decide (s.timestamp < time)) (l := t.samples)
  rw [before?, countBefore, List.getLast?_eq_getElem?]
  generalize t.samples.takeWhile (fun s => s.timestamp < time) = older at hsplit ⊢
  rw [← hsplit]
  split
  · rename_i hnone
    rw [List.length_eq_zero_iff.1 hnone]
    rfl
  · rw [List.getElem?_append_left (by omega)]

/-- The sample that is found at or after a time is the first one of the others. -/
theorem after?_eq (t : Timeline α) (time : Int) : t.after? time = t.samples[t.countBefore time]? := by
  have hsplit := List.takeWhile_append_dropWhile (p := fun s => decide (s.timestamp < time)) (l := t.samples)
  rw [after?, countBefore, List.head?_eq_getElem?]
  generalize t.samples.takeWhile (fun s => s.timestamp < time) = older at hsplit ⊢
  rw [← hsplit, List.getElem?_append_right (Nat.le_refl _), Nat.sub_self, hsplit]

end VesselTraffic.Timeline
