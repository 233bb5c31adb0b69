import VesselTraffic.Proofs.Timeline.Answering

/-!
# Windows

A window is pruned after each insertion, with a cutoff that depends on the latest sample so far. Since the latest sample is never
discarded, pruning before an insertion makes no difference if pruning follows (`retain_put_retain`). So in whatever order samples come,
a window holds what pruning once at the end leaves of all of them (`foldl_insert_window`), and a sample that comes later than the window
allows is gone at once (`Keeps.insert_window_of_late`).
-/

namespace VesselTraffic

variable {α : Type}

namespace Timeline

/-! ## The latest sample -/

/-- No sample is later than the last one. -/
theorem le_last {t : Timeline α} {x : Sample α} (h : t.last? = some x) : ∀ y ∈ t.samples, y.timestamp ≤ x.timestamp := by
  obtain ⟨front, hsplit⟩ := List.getLast?_eq_some_iff.1 h
  have hascending := t.ascending
  rw [hsplit] at hascending ⊢
  intro y hy
  rcases List.mem_append.1 hy with hy | hy
  · exact Int.le_of_lt ((List.pairwise_append.1 hascending).2.2 y hy x (List.mem_singleton.2 rfl))
  · exact Int.le_of_eq (congrArg Sample.timestamp (List.mem_singleton.1 hy))

/-- The last sample is the one of the greatest time at which something is found. -/
theorem last?_eq_some_iff {t : Timeline α} {x : Sample α} :
    t.last? = some x ↔ t.find? x.timestamp = some x ∧ ∀ c, (t.find? c).isSome → c ≤ x.timestamp := by
  rw [forall_isSome_find?_iff]
  constructor
  · intro h
    exact ⟨mem_samples_iff.1 (List.mem_of_getLast? h), le_last h⟩
  · rintro ⟨hfound, hle⟩
    have hmem := mem_samples_iff.2 hfound
    cases hy : t.last? with
    | none =>
      rw [List.getLast?_eq_none_iff.1 hy] at hmem
      cases hmem
    | some y =>
      have hmem' := List.mem_of_getLast? hy
      have htime : y.timestamp = x.timestamp := Int.le_antisymm (hle y hmem') (le_last hy x hmem)
      exact congrArg some (eq_of_timestamp_eq (mem_samples_iff.1 hmem') hfound htime)

/-- Without a last sample nothing is found. -/
theorem find?_eq_none_of_last? {t : Timeline α} (h : t.last? = none) (time : Int) : t.find? time = none := by
  have hnone : t.samples = [] := List.getLast?_eq_none_iff.1 h
  rw [find?, hnone]
  rfl

/-- The last sample after one was put: that one, unless the last one is later. -/
theorem last?_put (t : Timeline α) (x : Sample α) :
    (t.put x).last? = some (match t.last? with
      | none => x
      | some l => if x.timestamp < l.timestamp then l else x) := by
  rw [last?_eq_some_iff]
  cases hl : t.last? with
  | none =>
    simp only [find?_put, find?_eq_none_of_last? hl]
    refine ⟨by simp, fun c hc => ?_⟩
    split at hc
    · omega
    · cases hc
  | some l =>
    obtain ⟨hfound, hle⟩ := last?_eq_some_iff.1 hl
    simp only [find?_put]
    split
    · rename_i hlt
      refine ⟨by rw [if_neg (by omega), hfound], fun c hc => ?_⟩
      split at hc
      · omega
      · exact hle c hc
    · rename_i hge
      refine ⟨by simp, fun c hc => ?_⟩
      split at hc
      · omega
      · have := hle c hc
        omega

/-- Putting a sample makes the last one no earlier. -/
theorem le_last_put {t : Timeline α} {x k l : Sample α} (hk : t.last? = some k) (hl : (t.put x).last? = some l) :
    k.timestamp ≤ l.timestamp := by
  rw [last?_put, hk] at hl
  cases hl
  simp only
  split <;> omega

/-! ## Pruning to a window -/

variable (ms : Nat)

/-- A window without samples has nothing to prune. -/
theorem retain_window_of_none {t : Timeline α} (h : t.last? = none) : t.retain (.window ms) = t := by
  simp only [retain, Retention.window, h, List.foldl_nil]

/-- A window is cut off in front of its last sample. -/
theorem retain_window_of_some {t : Timeline α} {l : Sample α} (h : t.last? = some l) :
    t.retain (.window ms) = t.discardBefore (l.timestamp - ms) := by
  simp only [retain, Retention.window, h, List.foldl_cons, List.foldl_nil]

/-- Pruning to a window keeps the last sample. -/
theorem last?_retain_window (t : Timeline α) : (t.retain (.window ms)).last? = t.last? := by
  cases hl : t.last? with
  | none => rw [retain_window_of_none ms hl, hl]
  | some l =>
    obtain ⟨hfound, hle⟩ := last?_eq_some_iff.1 hl
    rw [retain_window_of_some ms hl, last?_eq_some_iff]
    simp only [find?_discardBefore]
    refine ⟨by rw [if_neg (by omega), hfound], fun c hc => ?_⟩
    split at hc
    · cases hc
    · exact hle c hc

/-- Pruning to a window leaves what is found at times that are not in front of it. -/
theorem find?_retain_window_of_le {t : Timeline α} {time : Int} (h : ∀ k, t.last? = some k → k.timestamp - ms ≤ time) :
    (t.retain (.window ms)).find? time = t.find? time := by
  cases hk : t.last? with
  | none => rw [retain_window_of_none ms hk]
  | some k =>
    have := h k hk
    rw [retain_window_of_some ms hk, find?_discardBefore, if_neg (by omega)]

/-- Pruning to a window before a sample is put makes no difference if pruning follows. -/
theorem retain_put_retain (t : Timeline α) (x : Sample α) :
    ((t.retain (.window ms)).put x).retain (.window ms) = (t.put x).retain (.window ms) := by
  have hlast : ((t.retain (.window ms)).put x).last? = (t.put x).last? := by rw [last?_put, last?_put, last?_retain_window]
  obtain ⟨l, hl⟩ : ∃ l, (t.put x).last? = some l := ⟨_, last?_put t x⟩
  rw [retain_window_of_some ms hl, retain_window_of_some ms (hlast.trans hl)]
  refine eq_of_find?_eq fun time => ?_
  rw [find?_discardBefore, find?_discardBefore, find?_put, find?_put]
  by_cases hcut : time < l.timestamp - ms
  · rw [if_pos hcut, if_pos hcut]
  · -- The cutoff that comes first is not later than the one that follows.
    have hfirst : ∀ k, t.last? = some k → k.timestamp - ms ≤ time := by
      intro k hk
      have := le_last_put hk hl
      omega
    rw [if_neg hcut, if_neg hcut, find?_retain_window_of_le ms hfirst]

/-- Whatever the order of samples, a window of them is what pruning once at the end leaves. -/
theorem foldl_insert_window (xs : List (Sample α)) (t : Timeline α) :
    xs.foldl (insert (.window ms)) (t.retain (.window ms)) = (xs.foldl put t).retain (.window ms) := by
  induction xs generalizing t with
  | nil => rfl
  | cons x rest ih =>
    rw [List.foldl_cons, List.foldl_cons, insert, retain_put_retain]
    exact ih (t.put x)

/-! ## The samples that were inserted -/

/-- Of samples that were put one after the other, something is found at the time of each. -/
theorem isSome_find?_foldl_put {xs : List (Sample α)} {x : Sample α} (hx : x ∈ xs) :
    ((xs.foldl put empty).find? x.timestamp).isSome := by
  have hlast : (xs.filter fun y => y.timestamp = x.timestamp).getLast? ≠ none := by
    rw [Ne, List.getLast?_eq_none_iff, List.filter_eq_nil_iff]
    exact fun h => h x hx (by simp)
  obtain ⟨y, hy⟩ := Option.ne_none_iff_exists'.1 hlast
  rw [find?_foldl_put, hy]
  rfl

/-- What is found among samples that were put one after the other is one of them. -/
theorem mem_of_find?_foldl_put {xs : List (Sample α)} {time : Int} {x : Sample α}
    (h : (xs.foldl put empty).find? time = some x) : x ∈ xs := by
  rw [find?_foldl_put] at h
  have hempty : (empty : Timeline α).find? time = none := rfl
  rw [hempty, Option.or_none] at h
  exact (List.mem_filter.1 (List.mem_of_getLast? h)).1

/-- A sample that was put as one of several is not later than the last of them all, which is one of them too. -/
theorem exists_last?_foldl_put {xs : List (Sample α)} (h : xs ≠ []) :
    ∃ newest ∈ xs, (xs.foldl put empty).last? = some newest ∧ ∀ x ∈ xs, x.timestamp ≤ newest.timestamp := by
  obtain ⟨x, hx⟩ := List.exists_mem_of_ne_nil xs h
  cases hl : (xs.foldl put empty).last? with
  | none =>
    have hsome := isSome_find?_foldl_put hx
    rw [find?_eq_none_of_last? hl] at hsome
    cases hsome
  | some newest =>
    obtain ⟨hfound, hle⟩ := last?_eq_some_iff.1 hl
    exact ⟨newest, mem_of_find?_foldl_put hfound, rfl, fun y hy => hle _ (isSome_find?_foldl_put hy)⟩

end Timeline

namespace Store

variable {s : Store α} {t : Timeline α}

/-! ## Late samples -/

/-- No time of a timeline is in front of a bound that is not later than any of its samples. -/
theorem takeWhile_times_of_le {bound : Int} (h : ∀ y ∈ t.samples, bound ≤ y.timestamp) : t.times.takeWhile (· < bound) = [] := by
  have hnone : ∀ time, time ∉ t.times.takeWhile (· < bound) := by
    intro time htime
    obtain ⟨hmem, hlt⟩ := Timeline.mem_takeWhile_times_iff.1 htime
    obtain ⟨y, hy, rfl⟩ := List.mem_map.1 hmem
    have := h y hy
    omega
  exact List.eq_nil_iff_forall_not_mem.2 hnone

/-- A time that a timeline has not is not in the dictionary of a store that keeps it. -/
theorem Keeps.filter_dictionary (h : s.Keeps t) {time : Int} (hfree : time ∉ t.times) :
    (s.dictionary.filter fun e => e.1 != time) = s.dictionary := by
  rw [List.filter_eq_self]
  intro e he
  simp only [bne_iff_ne, ne_eq]
  rintro rfl
  have hkey : e.1 ∈ s.dictionary.map Prod.fst := List.mem_map_of_mem he
  rw [← h.inStep.keys, ← Array.mem_toList_iff, h.times] at hkey
  exact hfree hkey

/-- A sample that is put in front of all others comes first in the index and in the dictionary. -/
theorem Keeps.put_front (h : s.Keeps t) {x : Sample α} (hlater : ∀ y ∈ t.samples, x.timestamp < y.timestamp) :
    (s.put x).times.toList = x.timestamp :: s.times.toList ∧ (s.put x).dictionary = (x.timestamp, x) :: s.dictionary := by
  have hfree : x.timestamp ∉ t.times := by
    intro hmem
    obtain ⟨y, hy, htime⟩ := List.mem_map.1 hmem
    have := hlater y hy
    omega
  constructor
  · rw [(h.put x).times, Timeline.times_put, if_neg hfree, takeWhile_times_of_le fun y hy => Int.le_of_lt (hlater y hy), h.times]
    rfl
  · exact congrArg _ (h.filter_dictionary hfree)

/-- A sample that is put in front of a cutoff that leaves all others is what the cutoff discards. -/
theorem Keeps.discardBefore_put (h : s.Keeps t) {x : Sample α} {cutoff : Int} (hx : x.timestamp < cutoff)
    (hothers : ∀ y ∈ t.samples, cutoff ≤ y.timestamp) : (s.put x).discardBefore cutoff = .ok (1, s) := by
  have hlater : ∀ y ∈ t.samples, x.timestamp < y.timestamp := fun y hy => Int.lt_of_lt_of_le hx (hothers y hy)
  obtain ⟨htimes, hdictionary⟩ := h.put_front hlater
  have hplace : TimeIndex.placeOf (s.put x).times cutoff = 1 := by
    rw [TimeIndex.placeOf_eq (h.put x).pairwise, htimes, List.takeWhile_cons_of_pos (by simpa using hx), h.times,
      takeWhile_times_of_le hothers]
    rfl
  have hdrop : (s.put x).times.drop 1 = s.times := by
    apply Array.toList_inj.1
    rw [Array.toList_drop, htimes]
    rfl
  have hremove : remove ((x.timestamp, x) :: s.dictionary) x.timestamp = .ok s.dictionary := by
    have hkept : (s.dictionary.filter fun e => e.1 != x.timestamp) = s.dictionary := (List.cons.inj hdictionary).2
    rw [remove, KeyedList.lookup_cons_self, if_pos (by simp), List.filter_cons_of_neg (by simp), hkept]
  rw [Store.discardBefore, hplace, htimes, hdictionary, hdrop]
  simp only [List.take_succ_cons, List.take_zero, List.foldlM_cons, List.foldlM_nil, hremove]
  rfl

/-- A sample that comes later than the window allows leaves no trace. -/
theorem Keeps.insert_window_of_late (h : s.Keeps t) {ms : Nat} {newest : Sample α} (hlast : t.last? = some newest)
    (hwindow : ∀ y ∈ t.samples, newest.timestamp - ms ≤ y.timestamp) {late : Sample α}
    (hlate : late.timestamp < newest.timestamp - ms) : s.insert (.window ms) late = .ok s := by
  have hlast' : (t.put late).last? = some newest := by
    rw [Timeline.last?_put, hlast]
    exact congrArg some (if_pos (by omega))
  have hcutoffs : (Pruning.window (α := α) ms).cutoffs (s.put late) = .ok [newest.timestamp - ms] := by
    rw [follows_window ms (h.put late)]
    simp only [Retention.window, hlast']
  have hcut : (s.put late).cut (newest.timestamp - ms) = .ok s := by
    rw [Store.cut, h.discardBefore_put hlate hwindow]
    rfl
  rw [Store.insert, prune, hcutoffs]
  simp only [Except.bind, List.foldlM_cons, List.foldlM_nil, hcut]
  rfl

/-! ## A run of insertions -/

/-- The store that samples make of the empty one when they are inserted one after the other. -/
def insertAll (p : Pruning α) (xs : List (Sample α)) : Except StoreFault (Store α) := xs.foldlM (Store.insert p) empty

/-- Inserting samples, with a pruning that follows the retention, keeps the timeline with them. -/
theorem keeps_insertAll {p : Pruning α} {keep : Retention α} (hp : Follows p keep) (xs : List (Sample α)) :
    ∃ s, insertAll p xs = .ok s ∧ s.Keeps (xs.foldl (Timeline.insert keep) Timeline.empty) :=
  keeps_empty.run (fun _ _ h => h.insert hp) xs

/-- In whatever order samples are inserted, a window holds those of all of them that are not older than the window allows, counted from
the greatest time that was inserted, with the same sample at each time. So after any insertion it has a last sample, which is that of all
samples, and a sample that comes later than the window allows leaves no trace. -/
theorem window_run (ms : Nat) (xs : List (Sample α)) :
    ∃ s all l, insertAll (.window ms) xs = .ok s ∧ insertAll .keepAll xs = .ok all ∧
      (∀ time, s.find? time = if ∀ x ∈ xs, x.timestamp - ms ≤ time then all.find? time else none) ∧
      (all.samples = .ok l ∧ s.samples = .ok (l.filter fun y => ∀ x ∈ xs, x.timestamp - ms ≤ y.timestamp)) ∧
      (xs ≠ [] → ∃ newest ∈ xs, (∀ x ∈ xs, x.timestamp ≤ newest.timestamp) ∧
        s.last = .ok (some newest) ∧ all.last = .ok (some newest)) ∧
      ∀ late : Sample α, (∃ x ∈ xs, late.timestamp < x.timestamp - ms) → s.insert (.window ms) late = .ok s := by
  obtain ⟨s, hrun, hs⟩ := keeps_insertAll (follows_window ms) xs
  obtain ⟨all, hall, ht⟩ := keeps_insertAll follows_keepAll xs
  have hwindow : xs.foldl (Timeline.insert (.window ms)) Timeline.empty = (xs.foldl Timeline.put Timeline.empty).retain (.window ms) :=
    Timeline.foldl_insert_window ms xs Timeline.empty
  rw [hwindow] at hs
  rw [Timeline.foldl_insert_keepAll] at ht
  refine ⟨s, all, (xs.foldl Timeline.put Timeline.empty).samples, hrun, hall, ?_⟩
  rcases eq_or_ne xs [] with rfl | hne
  · -- No sample was inserted, and both stores are empty.
    have hempty : (Timeline.empty : Timeline α).retain (.window ms) = Timeline.empty := rfl
    rw [List.foldl_nil, hempty] at hs
    rw [List.foldl_nil] at ht
    refine ⟨fun time => by simp [hs.found, ht.found], ⟨ht.samples_eq, hs.samples_eq⟩, fun h => absurd rfl h, ?_⟩
    rintro late ⟨x, hx, -⟩
    cases hx
  · obtain ⟨newest, hnewest, hlast, hle⟩ := Timeline.exists_last?_foldl_put hne
    have hlast' := (Timeline.last?_retain_window ms _).trans hlast
    rw [Timeline.retain_window_of_some ms hlast] at hs hlast'
    have hrecent : ∀ time : Int, (∀ x ∈ xs, x.timestamp - ms ≤ time) ↔ newest.timestamp - ms ≤ time := by
      intro time
      refine ⟨fun h => h newest hnewest, fun h x hx => ?_⟩
      have := hle x hx
      omega
    refine ⟨fun time => ?_, ⟨ht.samples_eq, ?_⟩, fun _ => ⟨newest, hnewest, hle, ?_, ?_⟩, ?_⟩
    · rw [hs.found, ht.found, Timeline.find?_discardBefore, if_congr (hrecent time) rfl rfl]
      by_cases hcut : time < newest.timestamp - ms
      · rw [if_pos hcut, if_neg (by omega)]
      · rw [if_neg hcut, if_pos (by omega)]
    · rw [hs.samples_eq, Timeline.samples_discardBefore]
      simp only [hrecent]
    · rw [hs.last_eq, hlast']
    · rw [ht.last_eq, hlast]
    · rintro late ⟨x, hx, hlate⟩
      have := hle x hx
      exact hs.insert_window_of_late hlast' (fun y hy => (Timeline.mem_discardBefore_iff.1 hy).2) (by omega)

-- The third sample comes later than the window allows, the fourth one just in time.
example : (([100, 130, 80, 95].map fun time => (⟨time, ⟨0, 0⟩, 0, 0, 0, .observed⟩ : Sample Nat)).foldlM
    (Store.insert (.window 40)) empty).map times = .ok #[95, 100, 130] := by decide +kernel

end Store
end VesselTraffic
