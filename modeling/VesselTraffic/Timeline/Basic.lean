import VesselTraffic.Timeline.Sample

/-!
# Timelines

A timeline holds the samples of one vessel in strictly ascending time, so it is a finite map from times to samples. A sample at a
time that is already known replaces the one there. Samples leave a timeline only by a cutoff, which discards all that are older;
after each insertion the retention of the timeline says which cutoffs to make.
-/

namespace VesselTraffic

/-- Samples in strictly ascending time. -/
def Ascending {α : Type} (l : List (Sample α)) : Prop := l.Pairwise fun a b => a.timestamp < b.timestamp

/-- The samples of a vessel in ascending time. -/
structure Timeline (α : Type) where
  samples : List (Sample α)
  ascending : Ascending samples
deriving DecidableEq, Repr

namespace Timeline

variable {α : Type}

/-- The timeline without samples. -/
def empty : Timeline α := ⟨[], List.Pairwise.nil⟩

/-- The number of samples. -/
def size (t : Timeline α) : Nat := t.samples.length

/-- The earliest sample. -/
def first? (t : Timeline α) : Option (Sample α) := t.samples.head?

/-- The latest sample. -/
def last? (t : Timeline α) : Option (Sample α) := t.samples.getLast?

/-- The times of the samples. -/
def times (t : Timeline α) : List Int := t.samples.map Sample.timestamp

/-- The sample at a time. -/
def find? (t : Timeline α) (time : Int) : Option (Sample α) := t.samples.find? fun s => s.timestamp = time

/-- A time with a sample. -/
def contains (t : Timeline α) (time : Int) : Bool := (t.find? time).isSome

/-- Samples with one put at its time, in place of the one there. -/
def place (s : Sample α) : List (Sample α) → List (Sample α)
  | [] => [s]
  | x :: rest =>
    if s.timestamp < x.timestamp then s :: x :: rest
    else if s.timestamp = x.timestamp then s :: rest
    else x :: place s rest

/-- Samples with one put at its time; one later than the last goes to the end at once. -/
def putLast (s : Sample α) (l : List (Sample α)) : List (Sample α) :=
  match l.getLast? with
  | none => [s]
  | some last => if last.timestamp < s.timestamp then l ++ [s] else place s l

/-- What is among the samples after one was put there is that one or was there before. -/
theorem mem_place {s x : Sample α} {l : List (Sample α)} (h : x ∈ place s l) : x = s ∨ x ∈ l := by
  induction l with
  | nil =>
    rw [place, List.mem_singleton] at h
    exact Or.inl h
  | cons y rest ih =>
    rw [place] at h
    split at h
    · exact List.mem_cons.1 h
    · split at h
      · rcases List.mem_cons.1 h with h | h
        · exact Or.inl h
        · exact Or.inr (List.mem_cons_of_mem _ h)
      · rcases List.mem_cons.1 h with h | h
        · exact Or.inr (by rw [h]; exact List.mem_cons_self)
        · rcases ih h with h | h
          · exact Or.inl h
          · exact Or.inr (List.mem_cons_of_mem _ h)

/-- Putting a sample at its time keeps the samples in ascending time. -/
theorem ascending_place (s : Sample α) {l : List (Sample α)} (h : Ascending l) : Ascending (place s l) := by
  induction l with
  | nil => exact List.pairwise_singleton _ _
  | cons y rest ih =>
    have hy := List.pairwise_cons.1 h
    rw [place]
    split
    · rename_i hlt
      refine List.pairwise_cons.2 ⟨?_, h⟩
      intro x hx
      rcases List.mem_cons.1 hx with hx | hx
      · rw [hx]; exact hlt
      · exact Int.lt_trans hlt (hy.1 x hx)
    · split
      · rename_i _ heq
        refine List.pairwise_cons.2 ⟨?_, hy.2⟩
        intro x hx
        rw [heq]
        exact hy.1 x hx
      · rename_i hlt heq
        refine List.pairwise_cons.2 ⟨?_, ih hy.2⟩
        intro x hx
        rcases mem_place hx with hx | hx
        · rw [hx]; omega
        · exact hy.1 x hx

/-- A sample later than the last may be put at the end. -/
theorem ascending_append {s last : Sample α} {l : List (Sample α)} (h : Ascending l) (hl : l.getLast? = some last)
    (hs : last.timestamp < s.timestamp) : Ascending (l ++ [s]) := by
  obtain ⟨front, rfl⟩ := List.getLast?_eq_some_iff.1 hl
  refine List.pairwise_append.2 ⟨h, List.pairwise_singleton _ _, ?_⟩
  intro a ha b hb
  rw [List.mem_singleton.1 hb]
  rcases List.mem_append.1 ha with ha | ha
  · exact Int.lt_trans ((List.pairwise_append.1 h).2.2 a ha last (List.mem_singleton.2 rfl)) hs
  · rw [List.mem_singleton.1 ha]; exact hs

/-- Both ways of putting a sample keep the samples in ascending time. -/
theorem ascending_putLast (s : Sample α) {l : List (Sample α)} (h : Ascending l) : Ascending (putLast s l) := by
  unfold putLast
  split
  · exact List.pairwise_singleton _ _
  · rename_i last hl
    split
    · exact ascending_append h hl (by assumption)
    · exact ascending_place s h

/-- The timeline with a sample put at its time. -/
def put (t : Timeline α) (s : Sample α) : Timeline α := ⟨putLast s t.samples, ascending_putLast s t.ascending⟩

/-- The timeline without the samples that are older than a time. -/
def discardBefore (t : Timeline α) (time : Int) : Timeline α :=
  ⟨t.samples.dropWhile fun s => s.timestamp < time, t.ascending.sublist (List.dropWhile_sublist _)⟩

/-- The number of samples that are older than a time. -/
def countBefore (t : Timeline α) (time : Int) : Nat := (t.samples.takeWhile fun s => s.timestamp < time).length

end Timeline

/-- The cutoffs to make after each insertion, in order. -/
structure Retention (α : Type) where
  cutoffs : Timeline α → List Int

namespace Retention

variable {α : Type}

/-- Keeps every sample. -/
def keepAll : Retention α := ⟨fun _ => []⟩

/-- Keeps the samples of a window up to the latest one. -/
def window (ms : Int) : Retention α :=
  ⟨fun t =>
    match t.last? with
    | none => []
    | some l => [l.timestamp - ms]⟩

/-- Keeps at most a number of samples, the latest ones. -/
def latest (count : Nat) : Retention α :=
  ⟨fun t => (t.times.drop (t.size - count)).take (if count < t.size then 1 else 0)⟩

end Retention

namespace Timeline

variable {α : Type}

/-- The timeline after the cutoffs of a retention. -/
def retain (keep : Retention α) (t : Timeline α) : Timeline α := (keep.cutoffs t).foldl discardBefore t

/-- The timeline with a sample put at its time, and after the cutoffs of its retention. -/
def insert (keep : Retention α) (t : Timeline α) (s : Sample α) : Timeline α := (t.put s).retain keep

/-- A timeline as it is shown. -/
def toText (t : Timeline α) : Text := "<Timeline(samples=".toList ++ Text.ofNat t.size ++ ")>".toList

end Timeline
end VesselTraffic
