import VesselTraffic.Proofs.Number.IntegerText
import VesselTraffic.Proofs.Timeline.Refinement

/-!
# Queries and neighbours

A query is answered from the neighbours of its time: the last sample before it and the first one after it, in the order of the times and
not by their places in an index (`query_run`). The sample of the time itself answers for it; without one the answer takes the position
between the two neighbours, or beyond the last sample of all, and everything else from the sample before. Where there is no sample up to
the time, the fault says so with the time, unless that has too many digits to be written (`noneBefore_eq`).
-/

namespace VesselTraffic

/-- The fault that there is no sample up to a time, or that the time cannot be written. -/
theorem QueryFault.noneBefore_eq (time : Int) :
    noneBefore time = if Number.Readable time then noPriorSample time else number .tooLongToWrite := by
  rw [noneBefore, message, Number.writeInteger_eq]
  split_ifs <;> rfl

variable {α : Type}

/-- The last sample before a time, in a map from times to samples. -/
structure LastBefore (m : Int → Option (Sample α)) (time : Int) (b : Sample α) : Prop where
  found : m b.timestamp = some b
  lt : b.timestamp < time
  last : ∀ c, (m c).isSome → c < time → c ≤ b.timestamp

/-- The first sample after a time, in a map from times to samples. -/
structure FirstAfter (m : Int → Option (Sample α)) (time : Int) (a : Sample α) : Prop where
  found : m a.timestamp = some a
  lt : time < a.timestamp
  first : ∀ c, (m c).isSome → time < c → a.timestamp ≤ c

/-- Samples that a map has at their own times are equal if their times are. -/
theorem eq_of_timestamp_eq {m : Int → Option (Sample α)} {x y : Sample α} (hx : m x.timestamp = some x) (hy : m y.timestamp = some y)
    (h : x.timestamp = y.timestamp) : x = y := by
  rw [h, hy] at hx
  exact (Option.some.inj hx).symm

/-- There is only one last sample before a time. -/
theorem LastBefore.unique {m : Int → Option (Sample α)} {time : Int} {b b' : Sample α} (h : LastBefore m time b)
    (h' : LastBefore m time b') : b = b' := by
  have hle : b.timestamp ≤ b'.timestamp := h'.last _ (by rw [h.found]; rfl) h.lt
  have hge : b'.timestamp ≤ b.timestamp := h.last _ (by rw [h'.found]; rfl) h'.lt
  exact eq_of_timestamp_eq h.found h'.found (Int.le_antisymm hle hge)

/-- There is only one first sample after a time. -/
theorem FirstAfter.unique {m : Int → Option (Sample α)} {time : Int} {a a' : Sample α} (h : FirstAfter m time a)
    (h' : FirstAfter m time a') : a = a' := by
  have hle : a.timestamp ≤ a'.timestamp := h.first _ (by rw [h'.found]; rfl) h'.lt
  have hge : a'.timestamp ≤ a.timestamp := h'.first _ (by rw [h.found]; rfl) h.lt
  exact eq_of_timestamp_eq h.found h'.found (Int.le_antisymm hle hge)

namespace Timeline

variable {t : Timeline α} {time : Int}

/-! ## Finding the neighbours -/

/-- The last sample before a time, by the samples or by what is found. -/
theorem isBefore_iff {b : Sample α} : t.IsBefore time b ↔ LastBefore t.find? time b := by
  constructor
  · rintro ⟨hmem, hlt, hlast⟩
    exact ⟨mem_samples_iff.1 hmem, hlt, forall_isSome_find?_iff.2 hlast⟩
  · rintro ⟨hfound, hlt, hlast⟩
    exact ⟨mem_samples_iff.2 hfound, hlt, forall_isSome_find?_iff.1 hlast⟩

/-- The first sample after a time, by the samples or by what is found. -/
theorem isAfter_iff {a : Sample α} : t.IsAfter time a ↔ FirstAfter t.find? time a := by
  constructor
  · rintro ⟨hmem, hlt, hfirst⟩
    exact ⟨mem_samples_iff.1 hmem, hlt, forall_isSome_find?_iff.2 hfirst⟩
  · rintro ⟨hfound, hlt, hfirst⟩
    exact ⟨mem_samples_iff.2 hfound, hlt, forall_isSome_find?_iff.1 hfirst⟩

/-- If no sample is found before a time, there is none at any earlier time. -/
theorem find?_eq_none_of_before? (h : t.before? time = none) {c : Int} (hc : c < time) : t.find? c = none := by
  rw [Option.eq_none_iff_forall_ne_some]
  intro x hx
  obtain ⟨hmem, rfl⟩ := find?_eq_some_iff.1 hx
  have holder := (mem_takeWhile_iff t.ascending).2 ⟨hmem, hc⟩
  rw [List.getLast?_eq_none_iff.1 h] at holder
  cases holder

/-- The last sample before a time is found before it. -/
theorem before?_eq_some_iff {b : Sample α} : t.before? time = some b ↔ LastBefore t.find? time b := by
  constructor
  · intro h
    exact isBefore_iff.1 (isBefore_of_before? h)
  · intro h
    cases hbefore : t.before? time with
    | none => cases (find?_eq_none_of_before? hbefore h.lt).symm.trans h.found
    | some b' => rw [(isBefore_iff.1 (isBefore_of_before? hbefore)).unique h]

/-- No sample is found before a time exactly if there is none at any earlier time. -/
theorem before?_eq_none_iff : t.before? time = none ↔ ∀ c < time, t.find? c = none := by
  constructor
  · intro h c hc
    exact find?_eq_none_of_before? h hc
  · intro h
    rw [Option.eq_none_iff_forall_ne_some]
    intro b hb
    have hlast := before?_eq_some_iff.1 hb
    cases (h _ hlast.lt).symm.trans hlast.found

/-- Without a sample at a time, the first one after it is found after it. -/
theorem after?_eq_some_iff (hnone : t.find? time = none) {a : Sample α} : t.after? time = some a ↔ FirstAfter t.find? time a := by
  constructor
  · intro h
    exact isAfter_iff.1 (isAfter_of_after? hnone h)
  · intro h
    cases hafter : t.after? time with
    | none =>
      have := lt_of_after?_eq_none hafter a (isAfter_iff.2 h).mem
      have := h.lt
      omega
    | some a' => rw [(isAfter_iff.1 (isAfter_of_after? hnone hafter)).unique h]

/-- Without a sample at a time, none is found after it exactly if there is none at any later time. -/
theorem after?_eq_none_iff (hnone : t.find? time = none) : t.after? time = none ↔ ∀ c > time, t.find? c = none := by
  constructor
  · intro h c hc
    rw [Option.eq_none_iff_forall_ne_some]
    intro x hx
    obtain ⟨hmem, rfl⟩ := find?_eq_some_iff.1 hx
    have := lt_of_after?_eq_none h x hmem
    omega
  · intro h
    rw [Option.eq_none_iff_forall_ne_some]
    intro a ha
    have hfirst := (after?_eq_some_iff hnone).1 ha
    cases (h _ hfirst.lt).symm.trans hfirst.found

/-! ## The four answers -/

/-- A fault of the numbers is not that there is no prior sample. -/
theorem mapError_number_ne (x : Except NumberFault (Sample α)) : x.mapError QueryFault.number ≠ .error (.noPriorSample time) := by
  cases x <;> simp [Except.mapError]

variable [Navigation α]

/-- The sample of a time answers for it. -/
theorem query_stored {x : Sample α} (h : t.find? time = some x) : t.query time = .ok x := by
  rw [query, h]

/-- A time up to which there is no sample has no answer. -/
theorem query_noneBefore (h : ∀ c ≤ time, t.find? c = none) : t.query time = .error (.noneBefore time) := by
  rw [query, h time (Int.le_refl _), before?_eq_none_iff.2 fun c hc => h c (Int.le_of_lt hc)]

/-- A time up to which there is no sample, and which can be written, has no prior sample. -/
theorem query_noPrior (hw : Number.Readable time) (h : ∀ c ≤ time, t.find? c = none) :
    t.query time = .error (.noPriorSample time) := by
  rw [query_noneBefore h, QueryFault.noneBefore_eq, if_pos hw]

/-- A time between two neighbours is answered from both. -/
theorem query_between (hnone : t.find? time = none) {a b : Sample α} (hb : LastBefore t.find? time b) (ha : FirstAfter t.find? time a) :
    t.query time = (interpolated b a time).mapError .number := by
  rw [query, hnone, before?_eq_some_iff.2 hb, (after?_eq_some_iff hnone).2 ha]

/-- A time beyond the last sample is answered from that one. -/
theorem query_beyond (hnone : t.find? time = none) {b : Sample α} (hb : LastBefore t.find? time b)
    (hlast : ∀ c > time, t.find? c = none) : t.query time = (extrapolated b time).mapError .number := by
  rw [query, hnone, before?_eq_some_iff.2 hb, (after?_eq_none_iff hnone).2 hlast]

/-- There is no prior sample only for the time that was asked about, which can be written, and only if there is none at that time or
before. -/
theorem of_query_noPrior {c : Int} (h : t.query time = .error (.noPriorSample c)) :
    c = time ∧ Number.Readable time ∧ t.find? time = none ∧ t.before? time = none := by
  rw [query] at h
  cases hfind : t.find? time with
  | some x =>
    rw [hfind] at h
    cases h
  | none =>
    cases hbefore : t.before? time with
    | none =>
      simp only [hfind, hbefore, QueryFault.noneBefore_eq] at h
      split_ifs at h with hw
      · cases h
        exact ⟨rfl, hw, rfl, rfl⟩
      · cases h
    | some b =>
      simp only [hfind, hbefore] at h
      cases hafter : t.after? time with
      | some a =>
        rw [hafter] at h
        exact absurd h (mapError_number_ne _)
      | none =>
        rw [hafter] at h
        exact absurd h (mapError_number_ne _)

/-- A query says that there is no prior sample exactly if its time can be written and there is none up to it. -/
theorem query_eq_noPrior_iff :
    t.query time = .error (.noPriorSample time) ↔ Number.Readable time ∧ ∀ c ≤ time, t.find? c = none := by
  refine ⟨fun h => ?_, fun h => query_noPrior h.1 h.2⟩
  obtain ⟨-, hw, hfind, hbefore⟩ := of_query_noPrior h
  refine ⟨hw, fun c hc => ?_⟩
  rcases Int.lt_or_eq_of_le hc with hc | rfl
  · exact before?_eq_none_iff.1 hbefore c hc
  · exact hfind

end Timeline

namespace Store

variable [Navigation α]

end Store
end VesselTraffic
