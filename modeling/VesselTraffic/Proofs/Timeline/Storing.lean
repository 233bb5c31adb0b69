import VesselTraffic.Proofs.KeyedList
import VesselTraffic.Proofs.Timeline.Discarding
import VesselTraffic.Proofs.Timeline.Indexing

/-!
# What stores keep

A store keeps a timeline if its index has the times of the timeline in order and its dictionary finds at each time what the timeline
finds there (`Keeps`). Whatever is done to both, with a pruning that follows the retention, the store answers as the timeline does and
keeps what the timeline has become. In particular no time is ever lost: each operation has a lemma that gives its answer.
-/

namespace VesselTraffic

variable {α : Type}

namespace Timeline

/-- The times of samples of which one was put at its time: a new time goes behind those before it. -/
theorem map_timestamp_place (x : Sample α) {l : List (Sample α)} (h : Ascending l) :
    (place x l).map Sample.timestamp =
      if x.timestamp ∈ l.map Sample.timestamp then l.map Sample.timestamp
      else (l.map Sample.timestamp).insertIdx ((l.map Sample.timestamp).takeWhile (· < x.timestamp)).length x.timestamp := by
  induction l with
  | nil => simp [place]
  | cons y rest ih =>
    obtain ⟨hy, hrest⟩ := ascending_cons.1 h
    rw [place, List.map_cons]
    split
    · rename_i hlt
      have hnot : x.timestamp ∉ rest.map Sample.timestamp := by
        intro hmem
        obtain ⟨z, hz, htime⟩ := List.mem_map.1 hmem
        have := hy z hz
        omega
      have hne : x.timestamp ≠ y.timestamp := by omega
      have hge : ¬y.timestamp < x.timestamp := by omega
      simp [hnot, hne, hge]
    · split
      · rename_i heq
        simp [heq]
      · rename_i hnlt hne
        have hlt : y.timestamp < x.timestamp := by omega
        rw [List.map_cons, ih hrest]
        by_cases hmem : x.timestamp ∈ rest.map Sample.timestamp
        · rw [if_pos hmem, if_pos (List.mem_cons_of_mem _ hmem)]
        · have hnot : x.timestamp ∉ y.timestamp :: rest.map Sample.timestamp := List.not_mem_cons_of_ne_of_not_mem hne hmem
          rw [if_neg hmem, if_neg hnot, List.takeWhile_cons_of_pos (by simpa using hlt), List.length_cons, List.insertIdx_succ_cons]

/-- The times of a timeline with a sample put at its time. -/
theorem times_put (t : Timeline α) (x : Sample α) :
    (t.put x).times =
      if x.timestamp ∈ t.times then t.times else t.times.insertIdx (t.times.takeWhile (· < x.timestamp)).length x.timestamp := by
  have hput : (t.put x).times = (putLast x t.samples).map Sample.timestamp := rfl
  rw [hput, putLast_eq_place x t.ascending]
  exact map_timestamp_place x t.ascending

end Timeline

namespace Store

/-- A store with the times of a timeline in its index, and with what the timeline finds in its dictionary, each time once. -/
structure Keeps (s : Store α) (t : Timeline α) : Prop where
  times : s.times.toList = t.times
  found : ∀ time, s.find? time = t.find? time
  distinct : (s.dictionary.map Prod.fst).Nodup

variable {s : Store α} {t : Timeline α}

/-- The empty store keeps the empty timeline. -/
theorem keeps_empty : (empty : Store α).Keeps Timeline.empty := ⟨rfl, fun _ => rfl, List.nodup_nil⟩

/-- If each step of a run keeps the timeline after it, so does the run, and it does not stop. -/
theorem Keeps.run {β : Type} {step : Store α → β → Except StoreFault (Store α)} {next : Timeline α → β → Timeline α}
    (hstep : ∀ ⦃s t⦄, s.Keeps t → ∀ x, ∃ s', step s x = .ok s' ∧ s'.Keeps (next t x)) (h : s.Keeps t) (xs : List β) :
    ∃ s', xs.foldlM step s = .ok s' ∧ s'.Keeps (xs.foldl next t) := by
  induction xs generalizing s t with
  | nil => exact ⟨s, rfl, h⟩
  | cons x rest ih =>
    obtain ⟨s₁, hfirst, h₁⟩ := hstep h x
    obtain ⟨s', hrest, hs'⟩ := ih h₁
    exact ⟨s', by rw [List.foldlM_cons, hfirst]; exact hrest, hs'⟩

/-- The index of a store that keeps a timeline is in ascending order. -/
theorem Keeps.pairwise (h : s.Keeps t) : s.times.toList.Pairwise (· < ·) := by
  rw [h.times]
  exact t.pairwise_times

/-- A store that keeps a timeline has as many samples. -/
theorem Keeps.size_eq (h : s.Keeps t) : s.size = t.size := by
  rw [size, ← Array.length_toList, h.times, Timeline.times, List.length_map]
  rfl

/-- The place of a time in the index is the number of samples before it. -/
theorem Keeps.placeOf_eq (h : s.Keeps t) (time : Int) : TimeIndex.placeOf s.times time = t.countBefore time := by
  rw [TimeIndex.placeOf_eq h.pairwise, h.times, t.countBefore_eq]

/-! ## Looking up -/

/-- A sample of the timeline is looked up by its time. -/
theorem Keeps.sampleAt_eq (h : s.Keeps t) {x : Sample α} (hx : x ∈ t.samples) : s.sampleAt x.timestamp = .ok x := by
  rw [sampleAt, h.found, Timeline.mem_samples_iff.1 hx]

/-- Samples that are looked up by their times one after the other. -/
theorem mapM_sampleAt {l : List (Sample α)} (h : ∀ x ∈ l, s.sampleAt x.timestamp = .ok x) :
    (l.map Sample.timestamp).mapM s.sampleAt = .ok l := by
  induction l with
  | nil => rfl
  | cons x rest ih =>
    rw [List.map_cons, List.mapM_cons, h x List.mem_cons_self, ih fun y hy => h y (List.mem_cons_of_mem x hy)]
    rfl

/-- A store lists the samples of the timeline. -/
theorem Keeps.samples_eq (h : s.Keeps t) : s.samples = .ok t.samples := by
  rw [samples, h.times]
  exact mapM_sampleAt fun x hx => h.sampleAt_eq hx

/-- The first sample of a store is that of the timeline. -/
theorem Keeps.first_eq (h : s.Keeps t) : s.first = .ok t.first? := by
  have htime : s.times[0]? = t.first?.map Sample.timestamp := by
    rw [← Array.getElem?_toList, h.times, Timeline.times, ← List.head?_eq_getElem?, List.head?_map]
    rfl
  rw [first, htime]
  cases hx : t.first? with
  | none => rfl
  | some x =>
    simp only [Option.map_some]
    rw [h.sampleAt_eq (List.mem_of_head? hx)]
    rfl

/-- The last sample of a store is that of the timeline. -/
theorem Keeps.last_eq (h : s.Keeps t) : s.last = .ok t.last? := by
  have htime : s.times.back? = t.last?.map Sample.timestamp := by
    rw [← Array.getLast?_toList, h.times, Timeline.times, List.getLast?_map]
    rfl
  rw [last, htime]
  cases hx : t.last? with
  | none => rfl
  | some x =>
    simp only [Option.map_some]
    rw [h.sampleAt_eq (List.mem_of_getLast? hx)]
    rfl

/-! ## Putting and discarding -/

/-- What a store finds after a sample was put at its time. -/
theorem find?_put (s : Store α) (x : Sample α) (time : Int) :
    (s.put x).find? time = if x.timestamp = time then some x else s.find? time := by
  by_cases htime : x.timestamp = time
  · subst htime
    rw [if_pos rfl]
    exact KeyedList.lookup_cons_self _ _ _
  · rw [if_neg htime]
    have hrest : (s.put x).find? time = (s.dictionary.filter fun e => e.1 != x.timestamp).lookup time :=
      KeyedList.lookup_cons_ne (Ne.symm htime) _ _
    rw [hrest, KeyedList.lookup_filter_key (fun k => k != x.timestamp), if_pos (by simpa using Ne.symm htime)]
    rfl

/-- Leaving out entries of a dictionary keeps its times distinct. -/
theorem Keeps.nodup_filter (h : s.Keeps t) (p : Int × Sample α → Bool) : ((s.dictionary.filter p).map Prod.fst).Nodup :=
  (List.filter_sublist.map Prod.fst).nodup h.distinct

/-- Putting a sample into a store keeps the timeline with it. -/
theorem Keeps.put (h : s.Keeps t) (x : Sample α) : (s.put x).Keeps (t.put x) := by
  have hdistinct : ((s.put x).dictionary.map Prod.fst).Nodup := by
    refine List.nodup_cons.2 ⟨?_, h.nodup_filter _⟩
    simp
  refine ⟨?_, fun time => by rw [find?_put, Timeline.find?_put, h.found], hdistinct⟩
  have hcontains : s.contains x.timestamp = true ↔ x.timestamp ∈ t.times := by
    rw [contains, h.found, Timeline.isSome_find?_iff]
  rw [Store.put, Timeline.times_put]
  by_cases hmem : x.timestamp ∈ t.times
  · simp only [hcontains.2 hmem, hmem, if_true]
    exact h.times
  · have hnew : s.contains x.timestamp = false := Bool.eq_false_iff.2 fun hc => hmem (hcontains.1 hc)
    simp only [hnew, hmem, if_false, Bool.false_eq_true]
    rw [TimeIndex.add_eq_insertAt h.pairwise, TimeIndex.toList_insertAt, TimeIndex.placeOf_eq h.pairwise, h.times]

/-- Distinct times of a dictionary are removed from it one after the other. -/
theorem foldlM_remove {times : List Int} (hdistinct : times.Nodup) {dictionary : List (Int × Sample α)}
    (h : ∀ time ∈ times, (dictionary.lookup time).isSome) :
    times.foldlM remove dictionary = .ok (dictionary.filter fun e => !times.contains e.1) := by
  induction times generalizing dictionary with
  | nil => exact congrArg Except.ok (List.filter_eq_self.2 fun _ _ => rfl).symm
  | cons time rest ih =>
    obtain ⟨hnot, hrest⟩ := List.nodup_cons.1 hdistinct
    have hothers : ∀ k ∈ rest, ((dictionary.filter fun e => e.1 != time).lookup k).isSome := by
      intro k hk
      have hne : (k != time) = true := by
        simp only [bne_iff_ne, ne_eq]
        rintro rfl
        exact hnot hk
      rw [KeyedList.lookup_filter_key (fun k => k != time), if_pos hne]
      exact h k (List.mem_cons_of_mem _ hk)
    rw [List.foldlM_cons, remove, if_pos (h time List.mem_cons_self)]
    refine (ih hrest hothers).trans (congrArg Except.ok ?_)
    rw [List.filter_filter]
    refine List.filter_congr fun e _ => ?_
    rw [List.contains_cons, Bool.not_or, Bool.and_comm]
    rfl

/-- Discarding from a store counts the samples that are older, and keeps the timeline without them. -/
theorem Keeps.discardBefore (h : s.Keeps t) (cutoff : Int) :
    ∃ s', s.discardBefore cutoff = .ok (t.countBefore cutoff, s') ∧ s'.Keeps (t.discardBefore cutoff) := by
  have hfound : ∀ time, s.dictionary.lookup time = t.find? time := h.found
  have hfront : s.times.toList.take (TimeIndex.placeOf s.times cutoff) = t.times.takeWhile (· < cutoff) := by
    rw [TimeIndex.take_placeOf h.pairwise, h.times]
  have hpresent : ∀ time ∈ t.times.takeWhile (· < cutoff), (s.dictionary.lookup time).isSome := by
    intro time htime
    rw [hfound, Timeline.isSome_find?_iff]
    exact (Timeline.mem_takeWhile_times_iff.1 htime).1
  have hdistinct : (t.times.takeWhile (· < cutoff)).Nodup :=
    (t.pairwise_times.sublist (List.takeWhile_sublist _)).imp Int.ne_of_lt
  refine ⟨⟨s.times.drop (TimeIndex.placeOf s.times cutoff),
    s.dictionary.filter fun e => !(t.times.takeWhile (· < cutoff)).contains e.1⟩, ?_, ?_, ?_, h.nodup_filter _⟩
  · rw [Store.discardBefore, hfront, foldlM_remove hdistinct hpresent, h.placeOf_eq]
    rfl
  · rw [Array.toList_drop, TimeIndex.drop_placeOf h.pairwise, h.times, Timeline.times_discardBefore]
  · intro time
    refine (KeyedList.lookup_filter_key (fun k => !(t.times.takeWhile (· < cutoff)).contains k) _ time).trans ?_
    rw [Timeline.find?_discardBefore, hfound]
    -- What was removed is what the timeline has before the cutoff; at other times there was nothing before.
    cases hx : t.find? time with
    | none => simp
    | some x =>
      have hmem : time ∈ t.times := Timeline.isSome_find?_iff.1 (by rw [hx]; rfl)
      by_cases hlt : time < cutoff <;> simp [Timeline.mem_takeWhile_times_iff, hmem, hlt]

/-- A cutoff keeps the timeline after it. -/
theorem Keeps.cut (h : s.Keeps t) (cutoff : Int) : ∃ s', s.cut cutoff = .ok s' ∧ s'.Keeps (t.discardBefore cutoff) := by
  obtain ⟨s', hdiscard, hs'⟩ := h.discardBefore cutoff
  exact ⟨s', by rw [Store.cut, hdiscard]; rfl, hs'⟩

/-! ## Inserting -/

/-- A pruning that makes the cutoffs of a retention. -/
def Follows (p : Pruning α) (keep : Retention α) : Prop := ∀ ⦃s t⦄, s.Keeps t → p.cutoffs s = .ok (keep.cutoffs t)

/-- Keeping every sample of a store is keeping every sample of a timeline. -/
theorem follows_keepAll : Follows (α := α) Pruning.keepAll Retention.keepAll := fun _ _ _ => rfl

/-- A window of a store is that of a timeline. -/
theorem follows_window (ms : Int) : Follows (α := α) (Pruning.window ms) (Retention.window ms) := by
  intro s t h
  simp only [Pruning.window, Retention.window, h.last_eq]
  cases t.last? <;> rfl

/-- Inserting a sample, with a pruning that follows the retention, keeps the timeline with it. -/
theorem Keeps.insert (h : s.Keeps t) {p : Pruning α} {keep : Retention α} (hp : Follows p keep) (x : Sample α) :
    ∃ s', s.insert p x = .ok s' ∧ s'.Keeps (t.insert keep x) := by
  obtain ⟨s', hcut, hs'⟩ := (h.put x).run (fun _ _ h => h.cut) (keep.cutoffs (t.put x))
  exact ⟨s', by rw [Store.insert, prune, hp (h.put x)]; exact hcut, hs'⟩

/-! ## Querying -/

/-- What the index has at a place is looked up to the sample at that place of the timeline. -/
theorem Keeps.sampleAt_getElem (h : s.Keeps t) {i : Nat} (hi : i < s.times.size) :
    ∃ x, t.samples[i]? = some x ∧ s.sampleAt s.times[i] = .ok x := by
  have htime : t.samples[i]?.map Sample.timestamp = some s.times[i] := by
    rw [← List.getElem?_map, ← Timeline.times, ← h.times, Array.getElem?_toList, Array.getElem?_eq_getElem hi]
  obtain ⟨x, hx, htime⟩ := Option.map_eq_some_iff.1 htime
  exact ⟨x, hx, by rw [← htime, h.sampleAt_eq (List.mem_of_getElem? hx)]⟩

/-- A query to a store is answered as by the timeline. -/
theorem Keeps.query_eq [Navigation α] (h : s.Keeps t) (time : Int) : s.query time = (t.query time).mapError .query := by
  rw [Store.query, Timeline.query, h.found]
  cases t.find? time with
  | some x => rfl
  | none =>
    simp only [h.placeOf_eq, Timeline.before?_eq, Timeline.after?_eq]
    have hcount : t.countBefore time ≤ s.times.size := h.placeOf_eq time ▸ TimeIndex.placeOf_le s.times time
    by_cases hfirst : t.countBefore time = 0
    · simp only [hfirst, dite_true, if_true]
      rfl
    · obtain ⟨a, ha, hlookup⟩ := h.sampleAt_getElem (i := t.countBefore time - 1) (by omega)
      simp only [hfirst, dite_false, if_false, ha, hlookup]
      by_cases hlast : t.countBefore time < s.times.size
      · obtain ⟨b, hb, hlookup'⟩ := h.sampleAt_getElem hlast
        simp only [hlast, dite_true, hb, hlookup']
        exact (mapError_mapError _ _ _).symm
      · have hnone : t.samples[t.countBefore time]? = none := by
          rw [List.getElem?_eq_none_iff]
          have := h.size_eq
          simp only [Store.size, Timeline.size] at this
          omega
        simp only [hlast, dite_false, hnone]
        exact (mapError_mapError _ _ _).symm

end Store
end VesselTraffic
