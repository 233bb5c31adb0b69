import Mathlib.Order.Bounds.Basic
import VesselTraffic.Proofs.Timeline.Discarding
import VesselTraffic.Proofs.Tracking.Indexes

/-!
# The first and the last time of a scenario

The bounds of a scenario are picked from the first and the last sample of each target. As every timeline ascends, they are the least and
the greatest of all times at which a target has a sample, in whatever order the targets are gone through (`isBound_firstTime`,
`isBound_lastTime`). A tracker that keeps every sample has samples at exactly the times of the valid reports that were applied
(`kept_reported_times`), so its bounds are those of the reports and only move apart (`bounds_run`).
-/

namespace VesselTraffic

variable {α : Type}

/-! ## The bound of a set of times -/

/-- A time of a set that stands in an order before all others of it, or none as the set is empty. -/
def IsBound (before : Int → Int → Prop) (times : Set Int) : Option Int → Prop
  | none => times = ∅
  | some a => a ∈ times ∧ ∀ b ∈ times, before a b

namespace IsBound

variable {before : Int → Int → Prop} {times times' : Set Int} {a b : Option Int}

/-- There is no bound exactly if there are no times. -/
theorem eq_none_iff (h : IsBound before times a) : a = none ↔ times = ∅ := by
  cases a with
  | none => exact iff_of_true rfl h
  | some a => exact iff_of_false (Option.some_ne_none a) fun hnone => (hnone ▸ h.1 : a ∈ (∅ : Set Int))

/-- A set of times has one bound. -/
theorem unique (hanti : ∀ x y, before x y → before y x → x = y) (ha : IsBound before times a) (hb : IsBound before times b) :
    a = b := by
  cases a with
  | none => exact (hb.eq_none_iff.2 ha).symm
  | some x =>
    cases b with
    | none => exact ha.eq_none_iff.2 hb
    | some y => exact congrArg some (hanti x y (ha.2 y hb.1) (hb.2 x ha.1))

/-- More times have a bound if fewer have one, and it is before that of the fewer. -/
theorem exists_of_subset (hb : IsBound before times' b) (hsub : times ⊆ times') {x : Int} (hx : IsBound before times (some x)) :
    ∃ y, b = some y ∧ before y x := by
  cases b with
  | none => exact absurd (hsub hx.1) (hb ▸ id)
  | some y => exact ⟨y, rfl, hb.2 x (hsub hx.1)⟩

end IsBound

/-- A choice of the one of two times that comes before the other in an order. -/
structure Chooses (choose : Int → Int → Int) (before : Int → Int → Prop) : Prop where
  either : ∀ a b, choose a b = a ∨ choose a b = b
  left : ∀ a b, before (choose a b) a
  right : ∀ a b, before (choose a b) b
  trans : ∀ {a b c}, before a b → before b c → before a c

/-- The smaller time comes before the other. -/
theorem chooses_min : Chooses min (· ≤ ·) := ⟨by omega, Int.min_le_left, Int.min_le_right, Int.le_trans⟩

/-- The greater time comes after the other. -/
theorem chooses_max : Chooses max (· ≥ ·) :=
  ⟨by omega, Int.le_max_left, Int.le_max_right, fun hab hbc => Int.le_trans hbc hab⟩

namespace Tracker

variable {choose : Int → Int → Int} {before : Int → Int → Prop}

/-- The better of two bounds is the bound of all times. -/
theorem isBound_better (hc : Chooses choose before) {times times' : Set Int} {a b : Option Int} (ha : IsBound before times a)
    (hb : IsBound before times' b) : IsBound before (times ∪ times') (better choose a b) := by
  cases a with
  | none =>
    rw [(ha : times = ∅), Set.empty_union]
    exact hb
  | some x =>
    cases b with
    | none =>
      rw [(hb : times' = ∅), Set.union_empty]
      exact ha
    | some y =>
      refine ⟨?_, ?_⟩
      · rcases hc.either x y with h | h
        · rw [h]
          exact Or.inl ha.1
        · rw [h]
          exact Or.inr hb.1
      · rintro z (hz | hz)
        · exact hc.trans (hc.left x y) (ha.2 z hz)
        · exact hc.trans (hc.right x y) (hb.2 z hz)

/-- The best of the bounds that are picked from members of a list is the bound of the times of all members. -/
theorem isBound_foldl_better (hc : Chooses choose before) {β : Type} {pick : β → Option Int} {times : β → Set Int} {l : List β}
    (hpick : ∀ x ∈ l, IsBound before (times x) (pick x)) {start : Set Int} {a : Option Int} (ha : IsBound before start a) :
    IsBound before (start ∪ {time | ∃ x ∈ l, time ∈ times x}) (l.foldl (fun bound x => better choose bound (pick x)) a) := by
  induction l generalizing start a with
  | nil =>
    have hnone : {time | ∃ x ∈ ([] : List β), time ∈ times x} = ∅ := by simp
    rw [hnone, Set.union_empty]
    exact ha
  | cons x rest ih =>
    have hcons : {time | ∃ y ∈ x :: rest, time ∈ times y} = times x ∪ {time | ∃ y ∈ rest, time ∈ times y} := by
      ext time
      simp
    rw [hcons, ← Set.union_assoc]
    exact ih (fun y hy => hpick y (List.mem_cons_of_mem x hy)) (isBound_better hc ha (hpick x List.mem_cons_self))

end Tracker

/-! ## The times of targets -/

/-- The first sample of a timeline has the least of its times. -/
theorem Timeline.isBound_first? (t : Timeline α) :
    IsBound (· ≤ ·) {time | time ∈ t.times} (t.first?.map Sample.timestamp) := by
  have hfirst : t.first?.map Sample.timestamp = t.times.head? := List.head?_map.symm
  rw [hfirst]
  cases htimes : t.times with
  | nil => simp [IsBound]
  | cons a rest =>
    have hle : ∀ b ∈ rest, a < b := (List.pairwise_cons.1 (htimes ▸ t.pairwise_times)).1
    refine ⟨List.mem_cons_self, fun b hb => ?_⟩
    rcases List.mem_cons.1 hb with rfl | hb
    · exact Int.le_refl b
    · exact Int.le_of_lt (hle b hb)

/-- The last sample of a timeline has the greatest of its times. -/
theorem Timeline.isBound_last? (t : Timeline α) :
    IsBound (· ≥ ·) {time | time ∈ t.times} (t.last?.map Sample.timestamp) := by
  have hlast : t.last?.map Sample.timestamp = t.times.getLast? := List.getLast?_map.symm
  rw [hlast]
  cases htimes : t.times.getLast? with
  | none => simp [IsBound, List.getLast?_eq_none_iff.1 htimes]
  | some a =>
    obtain ⟨front, hfront⟩ := List.getLast?_eq_some_iff.1 htimes
    have hsplit := List.pairwise_append.1 (hfront ▸ t.pairwise_times)
    rw [hfront]
    refine ⟨List.mem_append_right front List.mem_cons_self, fun b hb => ?_⟩
    rcases List.mem_append.1 hb with hb | hb
    · exact Int.le_of_lt (hsplit.2.2 b hb a List.mem_cons_self)
    · exact Int.le_of_eq (List.mem_singleton.1 hb)

/-- The times of a timeline in which a sample was put are its own and that of the sample. -/
theorem Timeline.mem_times_put {t : Timeline α} {s : Sample α} {time : Int} :
    time ∈ (t.put s).times ↔ time ∈ t.times ∨ s.timestamp = time := by
  rw [← isSome_find?_iff, ← isSome_find?_iff, find?_put]
  split
  · rename_i htime
    exact iff_of_true rfl (Or.inr htime)
  · rename_i hne
    exact (or_iff_left hne).symm

namespace Target

/-- The times at which one of some targets has a sample. -/
def sampleTimes (targets : List (Target α)) : Set Int := {time | ∃ x ∈ targets, ∃ s ∈ x.timeline.samples, s.timestamp = time}

/-- The first time that is found going through targets in order. -/
def firstTime (targets : List (Target α)) : Option Int :=
  targets.foldl (fun bound x => Tracker.better min bound (x.timeline.first?.map Sample.timestamp)) none

/-- The last time that is found going through targets in order. -/
def lastTime (targets : List (Target α)) : Option Int :=
  targets.foldl (fun bound x => Tracker.better max bound (x.timeline.last?.map Sample.timestamp)) none

/-- The times of targets are those of their timelines. -/
theorem sampleTimes_eq (targets : List (Target α)) :
    sampleTimes targets = ∅ ∪ {time | ∃ x ∈ targets, time ∈ {time | time ∈ x.timeline.times}} := by
  rw [Set.empty_union]
  ext time
  exact exists_congr fun x => and_congr_right fun _ => List.mem_map.symm

/-- The first time that is found is the least one. -/
theorem isBound_firstTime (targets : List (Target α)) : IsBound (· ≤ ·) (sampleTimes targets) (firstTime targets) := by
  rw [sampleTimes_eq]
  exact Tracker.isBound_foldl_better chooses_min (fun x _ => x.timeline.isBound_first?) rfl

/-- The last time that is found is the greatest one. -/
theorem isBound_lastTime (targets : List (Target α)) : IsBound (· ≥ ·) (sampleTimes targets) (lastTime targets) := by
  rw [sampleTimes_eq]
  exact Tracker.isBound_foldl_better chooses_max (fun x _ => x.timeline.isBound_last?) rfl

/-- Targets in another order have samples at the same times. -/
theorem sampleTimes_perm {xs ys : List (Target α)} (h : xs.Perm ys) : sampleTimes xs = sampleTimes ys := by
  ext time
  exact exists_congr fun x => and_congr_left fun _ => h.mem_iff

/-- The first time does not depend on the order of the targets. -/
theorem firstTime_perm {xs ys : List (Target α)} (h : xs.Perm ys) : firstTime xs = firstTime ys :=
  (isBound_firstTime xs).unique (fun _ _ => Int.le_antisymm) (sampleTimes_perm h ▸ isBound_firstTime ys)

/-- The last time does not depend on the order of the targets. -/
theorem lastTime_perm {xs ys : List (Target α)} (h : xs.Perm ys) : lastTime xs = lastTime ys :=
  (isBound_lastTime xs).unique (fun _ _ hyx hxy => Int.le_antisymm hxy hyx) (sampleTimes_perm h ▸ isBound_lastTime ys)

end Target

namespace Tracker

/-- The timeline of a vessel, which has no samples as long as the vessel is not known. -/
def timelineOf (t : Tracker α) (mmsi : Int) : Timeline α := ((t.find? mmsi).getD Target.unknown).timeline

/-- The times of all samples of all targets. -/
def sampleTimes (t : Tracker α) : Set Int := Target.sampleTimes t.targets

/-- The samples of a vessel are those of its target. -/
theorem mem_samples_timelineOf_iff {t : Tracker α} {mmsi : Int} {s : Sample α} :
    s ∈ (t.timelineOf mmsi).samples ↔ ∃ x, t.find? mmsi = some x ∧ s ∈ x.timeline.samples := by
  rw [timelineOf]
  cases t.find? mmsi with
  | none => exact iff_of_false List.not_mem_nil nofun
  | some x => simp

/-- The times of all samples are those of the timelines of the vessels. -/
theorem mem_sampleTimes_iff {t : Tracker α} {time : Int} : time ∈ t.sampleTimes ↔ ∃ mmsi, time ∈ (t.timelineOf mmsi).times := by
  constructor
  · rintro ⟨x, hx, s, hs, htime⟩
    obtain ⟨mmsi, hfind⟩ := Registry.exists_find?_of_mem_targets hx
    exact ⟨mmsi, List.mem_map.2 ⟨s, mem_samples_timelineOf_iff.2 ⟨x, hfind, hs⟩, htime⟩⟩
  · rintro ⟨mmsi, htime⟩
    obtain ⟨s, hs, rfl⟩ := List.mem_map.1 htime
    obtain ⟨x, hx, hs⟩ := mem_samples_timelineOf_iff.1 hs
    obtain ⟨i, -, hi⟩ := Registry.find?_eq_some_iff.1 hx
    exact ⟨x, List.mem_of_getElem? hi, s, hs, rfl⟩

/-- The bounds of a tracker and the times that they belong to: both are missing if there are no times, and otherwise they are the least
and the greatest of them. -/
structure Bounded (t : Tracker α) (times : Set Int) : Prop where
  begin_none_iff : t.begin? = none ↔ times = ∅
  end_none_iff : t.end? = none ↔ times = ∅
  least : ∀ b, t.begin? = some b → IsLeast times b
  greatest : ∀ e, t.end? = some e → IsGreatest times e

/-- The bounds of a tracker are those of the samples of its targets. -/
theorem bounded_sampleTimes (t : Tracker α) : Bounded t t.sampleTimes := by
  have hbegin : IsBound (· ≤ ·) t.sampleTimes t.begin? := Target.isBound_firstTime t.targets
  have hend : IsBound (· ≥ ·) t.sampleTimes t.end? := Target.isBound_lastTime t.targets
  refine ⟨hbegin.eq_none_iff, hend.eq_none_iff, fun b hb => ?_, fun e he => ?_⟩
  · rw [hb] at hbegin
    exact hbegin
  · rw [he] at hend
    exact hend

/-- Making a target brings no sample. -/
theorem timelineOf_ensure (t : Tracker α) (mmsi k : Int) : (t.ensure mmsi).timelineOf k = t.timelineOf k := by
  rw [timelineOf, timelineOf, find?_ensure]
  split
  · rename_i hk
    rw [hk, Option.getD_some]
  · rfl

/-- Labelling a target leaves its samples. -/
theorem timelineOf_labelTarget (t : Tracker α) (mmsi : Int) (l : Label) (k : Int) :
    (t.labelTarget mmsi l).state.timelineOf k = t.timelineOf k := by
  rw [timelineOf, timelineOf, find?_labelTarget]
  split
  · rename_i hk
    rw [hk]
    cases t.find? mmsi <;> rfl
  · rfl

variable [Navigation α]

/-- A message adds the sample of its valid position, if it has one, to the timeline of its sender. -/
theorem timelineOf_apply {t : Tracker α} (h : t.Consistent) {m : Message α} (hm : t.Admits m.mmsi) (k : Int) :
    (t.apply m).state.timelineOf k =
      if k = m.mmsi then m.sample?.elim (t.timelineOf k) ((t.timelineOf k).insert t.retention) else t.timelineOf k := by
  rw [timelineOf, find?_apply hm]
  split
  · rename_i hk
    rw [hk]
    exact Target.timeline_update (h.isOf m.mmsi)
  · rfl

/-- If every sample is kept, a message adds the time of its sample, if it has one, and takes none away. -/
theorem sampleTimes_apply {t : Tracker α} (h : t.Consistent) (hkeep : t.retention = Retention.keepAll) {m : Message α}
    (hm : t.Admits m.mmsi) :
    (t.apply m).state.sampleTimes = t.sampleTimes ∪ {time | ∃ s, m.sample? = some s ∧ s.timestamp = time} := by
  ext time
  refine mem_sampleTimes_iff.trans (Iff.trans ?_ (or_congr_left mem_sampleTimes_iff.symm))
  simp only [timelineOf_apply h hm, hkeep]
  cases hs : m.sample? with
  | none => simp
  | some s =>
    have hput : ∀ k, time ∈ ((t.timelineOf k).insert Retention.keepAll s).times ↔
        time ∈ (t.timelineOf k).times ∨ s.timestamp = time := fun k => Timeline.mem_times_put
    constructor
    · rintro ⟨k, hk⟩
      split at hk
      · exact ((hput k).1 hk).imp (fun hold => ⟨k, hold⟩) fun hnew => ⟨s, rfl, hnew⟩
      · exact Or.inl ⟨k, hk⟩
    · rintro (⟨k, hk⟩ | ⟨s', hs', htime⟩)
      · refine ⟨k, ?_⟩
        split
        · exact (hput k).2 (Or.inl hk)
        · exact hk
      · refine ⟨m.mmsi, ?_⟩
        rw [if_pos rfl]
        exact (hput m.mmsi).2 (Or.inr (Option.some.inj hs' ▸ htime))

/-- The times of the valid position reports among arrivals that were applied: those with a course and a speed that could be scaled. -/
def Arrival.appliedTimes (as : List (Arrival α)) : Set Int :=
  {time | ∃ r ∈ Arrival.reports as, (∃ s, Sample.ofReport r = .ok s) ∧ r.timestamp = time}

/-- A valid position report that is applied adds its time. -/
theorem Arrival.appliedTimes_concat_message (as : List (Arrival α)) (m : Message α) :
    appliedTimes (as ++ [message m]) = appliedTimes as ∪ {time | ∃ s, m.sample? = some s ∧ s.timestamp = time} := by
  ext time
  have hnow : (∃ r, m.validReport? = some r ∧ (∃ s, Sample.ofReport r = .ok s) ∧ r.timestamp = time) ↔
      ∃ s, m.sample? = some s ∧ s.timestamp = time := by
    simp only [Message.sample?_eq_some_iff]
    constructor
    · rintro ⟨r, hr, ⟨s, hs⟩, htime⟩
      exact ⟨s, ⟨r, hr, hs⟩, (Sample.timestamp_of_ofReport hs).trans htime⟩
    · rintro ⟨s, ⟨r, hr, hs⟩, htime⟩
      exact ⟨r, hr, ⟨s, hs⟩, (Sample.timestamp_of_ofReport hs).symm.trans htime⟩
  refine Iff.trans ?_ (or_congr_right hnow)
  have hmem : ∀ r, r ∈ reports (as ++ [message m]) ↔ r ∈ reports as ∨ m.validReport? = some r := by
    intro r
    rw [reports_concat_message, List.mem_append, Option.mem_toList]
  refine (exists_congr fun r => and_congr_left fun _ => hmem r).trans ?_
  simp only [or_and_right, exists_or]
  exact Iff.rfl

/-- The first of more arrivals were applied already. -/
theorem Arrival.appliedTimes_subset (as later : List (Arrival α)) : appliedTimes as ⊆ appliedTimes (as ++ later) := by
  rintro time ⟨r, hr, happlied⟩
  refine ⟨r, ?_, happlied⟩
  rw [reports, messages, List.filterMap_append, List.filterMap_append]
  exact List.mem_append_left _ hr

/-- A tracker that keeps every sample has samples at the times of the reports that were applied. -/
theorem kept_reported_times : Kept fun (t : Tracker α) as =>
    t.retention = Retention.keepAll ∧ t.Consistent ∧ t.sampleTimes = Arrival.appliedTimes as := by
  refine ⟨?_, ?_, ?_, ?_⟩
  · rintro t as m hm ⟨hkeep, hown, htimes⟩
    refine ⟨(kept_retention _).message (a := as) m hm hkeep, kept_consistent.message (a := as) m hm hown, ?_⟩
    rw [sampleTimes_apply hown hkeep hm, htimes, Arrival.appliedTimes_concat_message]
  · rintro t as b hb ⟨hkeep, hown, htimes⟩
    refine ⟨(kept_retention _).registered (a := as) hb hkeep, kept_consistent.registered (a := as) hb hown, ?_⟩
    rw [Arrival.appliedTimes, Arrival.reports_concat_of_none as hb.message?]
    ext time
    simp only [mem_sampleTimes_iff, timelineOf_ensure]
    exact mem_sampleTimes_iff.symm.trans (iff_of_eq (congrArg (time ∈ ·) htimes))
  · rintro t as mmsi l ⟨hkeep, hown, htimes⟩
    refine ⟨(kept_retention _).label (a := as) mmsi l hkeep, kept_consistent.label (a := as) mmsi l hown, ?_⟩
    rw [← htimes]
    ext time
    simp only [mem_sampleTimes_iff, timelineOf_labelTarget]
  · exact fun n h => h

/-- A message is applied without a fault by a tracker whose targets are of their vessels exactly if its vessel is admitted and it is
acceptable. -/
theorem result_apply_eq_ok_iff {t : Tracker α} (h : t.Consistent) {m : Message α} :
    (t.apply m).result = .ok () ↔ t.Admits m.mmsi ∧ m.Acceptable := by
  by_cases hm : t.Admits m.mmsi
  · rw [(apply_eq hm).2, h.taken_eq_ok_iff, and_iff_right hm]
  · rw [apply_of_not_admits hm]
    exact iff_of_false nofun fun ha => hm ha.1

/-- A fresh tracker has no samples, and nothing has been applied by it. -/
theorem sampleTimes_fresh (keep : Retention α) : (fresh keep).sampleTimes = Arrival.appliedTimes ([] : List (Arrival α)) := by
  ext time
  exact iff_of_false (fun ⟨_, hx, _⟩ => List.not_mem_nil hx) fun ⟨_, hr, _⟩ => List.not_mem_nil hr

/-! ## The bounds of a scenario -/

/-- After any operations and whatever the retention decides at each of them, the bounds of a scenario are found by going through the
targets in any order, and they are the least and the greatest time of all samples of all targets, or missing if no target has a sample. If
every sample is kept they are the least and the greatest time of all valid position reports that were applied, a message being applied
without a fault exactly if its vessel is known or has an MMSI that can be written, and its valid position, if it has one, can be made a
sample; and whatever is ingested next, the first bound does not rise and the last one does not fall. -/
theorem bounds_run (keep : Retention α) (steps : List (Step α)) :
    let t := (fresh keep).runSteps steps
    let operations := steps.map Step.operation
    let kept := (fresh Retention.keepAll).run operations
    (∀ xs : List (Target α), xs.Perm t.targets → Target.firstTime xs = t.begin? ∧ Target.lastTime xs = t.end?) ∧
      (Bounded t t.sampleTimes ∧ ∀ b e, t.begin? = some b → t.end? = some e → b ≤ e) ∧
      (Bounded kept (Arrival.appliedTimes ((fresh Retention.keepAll).arrivals operations)) ∧
        ∀ m, (kept.apply m).result = .ok () ↔ kept.Admits m.mmsi ∧ m.Acceptable) ∧
      ∀ i : Item α,
        (∀ b, kept.begin? = some b → ∃ b', (kept.ingest i).state.begin? = some b' ∧ b' ≤ b) ∧
        ∀ e, kept.end? = some e → ∃ e', (kept.ingest i).state.end? = some e' ∧ e ≤ e' := by
  intro t operations kept
  have hrun : kept.retention = Retention.keepAll ∧ kept.Consistent ∧
      kept.sampleTimes = Arrival.appliedTimes ((fresh Retention.keepAll).arrivals operations) :=
    kept_reported_times.run_fresh ⟨rfl, consistent_fresh _, sampleTimes_fresh _⟩ operations
  have hnext : ∀ i, kept.sampleTimes ⊆ (kept.ingest i).state.sampleTimes := by
    intro i
    rw [(kept_reported_times.ingest hrun i).2.2, hrun.2.2]
    exact Arrival.appliedTimes_subset _ _
  refine ⟨fun xs hxs => ⟨Target.firstTime_perm hxs, Target.lastTime_perm hxs⟩, ⟨t.bounded_sampleTimes, fun b e hb he => ?_⟩,
    ⟨?_, fun m => result_apply_eq_ok_iff hrun.2.1⟩, fun i => ⟨fun b hb => ?_, fun e he => ?_⟩⟩
  · exact (t.bounded_sampleTimes.least b hb).2 (t.bounded_sampleTimes.greatest e he).1
  · exact hrun.2.2 ▸ kept.bounded_sampleTimes
  · exact (Target.isBound_firstTime (kept.ingest i).state.targets).exists_of_subset (hnext i)
      (hb ▸ Target.isBound_firstTime kept.targets)
  · exact (Target.isBound_lastTime (kept.ingest i).state.targets).exists_of_subset (hnext i)
      (he ▸ Target.isBound_lastTime kept.targets)

end Tracker
end VesselTraffic
