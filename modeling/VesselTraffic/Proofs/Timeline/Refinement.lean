import VesselTraffic.Proofs.Timeline.Storing

/-!
# Stores as finite maps

A history of a store is a list of changes: samples that were inserted, each with the cutoffs that its pruning made thereupon, and
cutoffs that were made by themselves. On a map from times to samples an insertion is an update at one time, and a cutoff takes all that
is before it. After any history the index and the dictionary of the store are in step, and what it shows is that map (`run_refines`).
-/

namespace VesselTraffic

variable {α : Type}

/-- A change of a store: a sample is inserted and then cutoffs are made, whatever its pruning reads to choose them; or a cutoff is made
by itself. -/
inductive Change (α : Type) where
  | insert (sample : Sample α) (cutoffs : List Int)
  | discard (cutoff : Int)

namespace Change

/-- A map from times to samples without all that is before a cutoff. -/
def without (m : Int → Option (Sample α)) (cutoff : Int) : Int → Option (Sample α) := fun time =>
  if time < cutoff then none else m time

/-- A map from times to samples after a change. -/
def onMap (m : Int → Option (Sample α)) : Change α → Int → Option (Sample α)
  | insert x cutoffs => cutoffs.foldl without (Function.update m x.timestamp (some x))
  | discard cutoff => without m cutoff

/-- The map that changes make of the empty one. -/
def mapAfter (changes : List (Change α)) : Int → Option (Sample α) := changes.foldl onMap fun _ => none

end Change

namespace Timeline

/-- A timeline after a change. -/
def change (t : Timeline α) : Change α → Timeline α
  | .insert x cutoffs => t.insert ⟨fun _ => cutoffs⟩ x
  | .discard cutoff => t.discardBefore cutoff

/-- What a timeline finds after a cutoff is the map of its samples without what is before it. -/
theorem find?_discardBefore_eq (t : Timeline α) (cutoff : Int) : (t.discardBefore cutoff).find? = Change.without t.find? cutoff :=
  funext fun time => find?_discardBefore t cutoff time

/-- What a timeline finds after cutoffs is the map of its samples without what is before them. -/
theorem find?_foldl_without (cutoffs : List Int) (t : Timeline α) :
    (cutoffs.foldl discardBefore t).find? = cutoffs.foldl Change.without t.find? :=
  (List.foldl_hom find? fun t cutoff => (find?_discardBefore_eq t cutoff).symm).symm

/-- A change of a timeline is that of the map of its samples. -/
theorem find?_change (t : Timeline α) (c : Change α) : (t.change c).find? = c.onMap t.find? := by
  cases c with
  | insert x cutoffs =>
    refine (find?_foldl_without cutoffs (t.put x)).trans (congrArg (cutoffs.foldl Change.without) (funext fun time => ?_))
    rw [find?_put, Function.update_apply]
    simp only [eq_comm]
  | discard cutoff => exact find?_discardBefore_eq t cutoff

/-- After changes a timeline finds what the map after them has. -/
theorem find?_foldl_change (changes : List (Change α)) (t : Timeline α) :
    (changes.foldl change t).find? = changes.foldl Change.onMap t.find? :=
  (List.foldl_hom find? fun t c => (find?_change t c).symm).symm

end Timeline

namespace Store

/-- A store after a change. -/
def change (s : Store α) : Change α → Except StoreFault (Store α)
  | .insert x cutoffs => s.insert ⟨fun _ => .ok cutoffs⟩ x
  | .discard cutoff => s.cut cutoff

/-- The store that changes make of the empty one. -/
def run (changes : List (Change α)) : Except StoreFault (Store α) := changes.foldlM change empty

variable {s : Store α} {t : Timeline α}

/-- A change keeps the timeline after it. -/
theorem Keeps.change (h : s.Keeps t) (c : Change α) : ∃ s', s.change c = .ok s' ∧ s'.Keeps (t.change c) := by
  cases c with
  | insert x cutoffs => exact h.insert (fun _ _ _ => rfl) x
  | discard cutoff => exact h.cut cutoff

/-- Every history ends in a store, which keeps a timeline that finds what the map after the history has. -/
theorem keeps_run (changes : List (Change α)) :
    ∃ s t, run changes = .ok s ∧ s.Keeps t ∧ t.find? = Change.mapAfter changes := by
  obtain ⟨s, hrun, hs⟩ := keeps_empty.run (fun _ _ h => h.change) changes
  exact ⟨s, _, hrun, hs, Timeline.find?_foldl_change changes Timeline.empty⟩

/-- A history that goes on by one change. -/
theorem run_concat {changes : List (Change α)} (h : run changes = .ok s) (c : Change α) : run (changes ++ [c]) = s.change c := by
  have hrun : changes.foldlM change (empty : Store α) = .ok s := h
  rw [run, List.foldlM_append, hrun]
  exact bind_pure (s.change c)

/-- The index and the dictionary of a store are in step: the index lists the times of the dictionary, each once and in ascending order,
and each sample is there under its own time. -/
structure InStep (s : Store α) : Prop where
  ascending : s.times.toList.Pairwise (· < ·)
  distinct : (s.dictionary.map Prod.fst).Nodup
  keys : ∀ time, time ∈ s.times ↔ time ∈ s.dictionary.map Prod.fst
  own : ∀ e ∈ s.dictionary, e.2.timestamp = e.1

/-- What a store shows is a map from times to samples: what it finds, whether it finds anything, its samples in ascending order, each
once, their number, and the first and the last one of them. -/
structure Shows (s : Store α) (m : Int → Option (Sample α)) (l : List (Sample α)) : Prop where
  find? : ∀ time, s.find? time = m time
  contains : ∀ time, s.contains time = (m time).isSome
  samples : s.samples = .ok l
  ascending : Ascending l
  mem_iff : ∀ x, x ∈ l ↔ m x.timestamp = some x
  size : s.size = l.length
  first : s.first = .ok l.head?
  last : s.last = .ok l.getLast?

/-- A store that keeps a timeline is in step. -/
theorem Keeps.inStep (h : s.Keeps t) : s.InStep := by
  have hfound : ∀ time, s.dictionary.lookup time = t.find? time := h.found
  refine ⟨h.pairwise, h.distinct, fun time => ?_, fun e he => ?_⟩
  · rw [← KeyedList.isSome_lookup_iff, hfound, Timeline.isSome_find?_iff, ← h.times, Array.mem_toList_iff]
  · have hlookup := (KeyedList.lookup_eq_some_iff_mem h.distinct).2 he
    rw [hfound] at hlookup
    exact (Timeline.find?_eq_some_iff.1 hlookup).2

/-- A store that keeps a timeline shows what the timeline finds. -/
theorem Keeps.shows (h : s.Keeps t) : s.Shows t.find? t.samples where
  find? := h.found
  contains time := by rw [Store.contains, h.found]
  samples := h.samples_eq
  ascending := t.ascending
  mem_iff _ := Timeline.mem_samples_iff
  size := h.size_eq
  first := h.first_eq
  last := h.last_eq

/-- After any history a store is a finite map. No time is lost: the history ends in a store whose index and dictionary are in step, and
it shows the map on which each insertion was an update at the time of its sample, followed by its cutoffs, and each cutoff took what was
before it. Whether a new time goes to the end at once or to its place makes no difference; an insertion with any pruning is the change
with the cutoffs that the pruning makes; and a cutoff takes exactly the samples that are older, and gives their number. -/
theorem run_refines (changes : List (Change α)) :
    ∃ s l, run changes = .ok s ∧ s.InStep ∧ s.Shows (Change.mapAfter changes) l ∧
      (∀ time, TimeIndex.add s.times time = TimeIndex.insertAt s.times time) ∧
      (∀ (p : Pruning α) x cutoffs, p.cutoffs (s.put x) = .ok cutoffs → s.insert p x = run (changes ++ [.insert x cutoffs])) ∧
      ∀ cutoff, ∃ s', s.discardBefore cutoff = .ok ((l.filter fun x => x.timestamp < cutoff).length, s') ∧
        run (changes ++ [.discard cutoff]) = .ok s' ∧ s'.samples = .ok (l.filter fun x => cutoff ≤ x.timestamp) := by
  obtain ⟨s, t, hrun, hs, hmap⟩ := keeps_run changes
  refine ⟨s, t.samples, hrun, hs.inStep, hmap ▸ hs.shows, TimeIndex.add_eq_insertAt hs.pairwise, ?_, ?_⟩
  · intro p x cutoffs hcutoffs
    rw [run_concat hrun, change, insert, insert, prune, prune, hcutoffs]
  · intro cutoff
    obtain ⟨s', hdiscard, hs'⟩ := hs.discardBefore cutoff
    rw [Timeline.countBefore, Timeline.takeWhile_eq_filter t.ascending] at hdiscard
    refine ⟨s', hdiscard, ?_, ?_⟩
    · rw [run_concat hrun, change, cut, hdiscard]
      rfl
    · rw [hs'.samples_eq, Timeline.samples_discardBefore]

end Store
end VesselTraffic
