import VesselTraffic.Proofs.Chart.Marks
import VesselTraffic.Proofs.Geo.ExactNavigation
import VesselTraffic.Proofs.Timeline.Querying
import VesselTraffic.Proofs.Tracking.Indexes

/-!
# Where vessels are shown

Every sample of a target was reported to the tracker (`kept_reported`), so the extent covers it, whatever the retention discarded and
whichever sample replaced another one. In exact coordinates the extent covers what is interpolated between samples as well, and a sample
that is held in place; only what is reckoned from course and speed may be outside of it (`covers_query`). So a mark in a drawing looks
different only where a vessel was reckoned on.
-/

namespace VesselTraffic

variable {α : Type} [Navigation α]

/-- A message brings a target no other sample than that of its valid report. -/
theorem Target.mem_samples_update {keep : Retention α} {t : Target α} {m : Message α} {s : Sample α}
    (h : s ∈ (t.update keep (.message m)).state.timeline.samples) :
    s ∈ t.timeline.samples ∨ ∃ r, m.validReport? = some r ∧ Sample.ofReport r = .ok s := by
  by_cases ht : t.IsOf m.mmsi
  · rw [timeline_update ht] at h
    cases hs : m.sample? with
    | none =>
      rw [hs] at h
      exact Or.inl h
    | some x =>
      rw [hs] at h
      rcases Timeline.mem_samples_insert h with rfl | hold
      · exact Or.inr (Message.sample?_eq_some_iff.1 hs)
      · exact Or.inl hold
  · rw [state_update_of_not_isOf ht] at h
    exact Or.inl h

namespace Tracker

/-- The samples of targets are those of reports of their vessels. -/
theorem kept_reported : Kept fun (t : Tracker α) as => t.Consistent ∧ ∀ mmsi x, t.find? mmsi = some x →
    ∀ s ∈ x.timeline.samples, ∃ r ∈ Arrival.reports as, r.mmsi = mmsi ∧ Sample.ofReport r = .ok s := by
  have hearlier : ∀ {r : PositionReport α} {as} a, r ∈ Arrival.reports as → r ∈ Arrival.reports (as ++ [a]) := by
    intro r as a hr
    rw [Arrival.reports, Arrival.messages, List.filterMap_append, List.filterMap_append]
    exact List.mem_append_left _ hr
  refine kept_consistent.of_targets ?_ ?_ ?_ fun _ h => h
  · intro t as mmsi _ _ s hs
    cases hs
  · intro x as keep m h s hs
    rcases Target.mem_samples_update hs with hold | ⟨r, hr, hsr⟩
    · obtain ⟨r, hr, hreport⟩ := h s hold
      exact ⟨r, hearlier _ hr, hreport⟩
    · refine ⟨r, ?_, ?_, hsr⟩
      · rw [Arrival.reports_concat_message, hr]
        exact List.mem_append_right _ (List.mem_singleton.2 rfl)
      · obtain ⟨rfl, -⟩ := Message.validReport?_eq_some_iff.1 hr
        rfl
  · intro mmsi x as a _ h s hs
    obtain ⟨r, hr, hreport⟩ := h s hs
    exact ⟨r, hearlier a hr, hreport⟩

/-- After any steps every sample of a target was reported by the vessel that the target is kept under. -/
theorem reported_runSteps (keep : Retention α) (steps : List (Step α)) {mmsi : Int} {x : Target α}
    (hx : ((fresh keep).runSteps steps).find? mmsi = some x) {s : Sample α} (hs : s ∈ x.timeline.samples) :
    ∃ r ∈ Arrival.reports ((fresh keep).stepArrivals steps), r.mmsi = mmsi ∧ Sample.ofReport r = .ok s :=
  (kept_reported.runSteps (fun _ h => h) (a := []) ⟨consistent_fresh keep, fun _ _ hnone => by cases hnone⟩ steps).2 mmsi x hx s hs

/-- Where the coordinates of valid reports are compared as in a linear order, the extent covers every sample. -/
theorem covers_of_mem_samples {N : α → Prop} (h : OrderedOn N Navigation.le Navigation.lt)
    (hN : ∀ {m : Message α} {r}, m.validReport? = some r → r.position.Among N) {keep : Retention α} {steps : List (Step α)}
    {mmsi : Int} {x : Target α} (hx : ((fresh keep).runSteps steps).find? mmsi = some x) {s : Sample α}
    (hs : s ∈ x.timeline.samples) : Extent.Covers ((fresh keep).runSteps steps).extent s.position := by
  obtain ⟨r, hr, -, hreport⟩ := reported_runSteps keep steps hx hs
  have hnumbers : ∀ p ∈ (Arrival.reports ((fresh keep).stepArrivals steps)).map PositionReport.position, p.Among N := by
    refine List.forall_mem_map.2 fun r' hr' => ?_
    obtain ⟨m, -, hm⟩ := List.mem_filterMap.1 hr'
    exact hN hm
  obtain ⟨_, -, _, -, rfl⟩ := Sample.ofReport_eq_ok_iff.1 hreport
  rw [extent_runSteps_arrivals]
  exact Extent.covers_foldl_observe h nofun hnumbers (List.mem_map_of_mem hr)

end Tracker

/-- What answers for a time is inside of a box that covers the samples, unless it is reckoned from course and speed. -/
theorem Timeline.Answers.covers_or_reckoned [Reckoning] {t : Timeline ℚ} {time : Int} {s : Sample ℚ} {box : Option (Extent ℚ)}
    (h : t.Answers time s) (hbox : ∀ a ∈ t.samples, Extent.Covers box a.position) :
    Extent.Covers box s.position ∨ s.kind = .extrapolated ∧ ∃ a, t.IsBefore time a ∧ (∀ c ∈ t.samples, c.timestamp < time) ∧
      Navigation.hasMotion a.sog a.cog = .ok true ∧
      Navigation.reckon a.position a.cog a.sog (time - a.timestamp) = .ok s.position := by
  cases h with
  | stored mem _ => exact Or.inl (hbox s mem)
  | @held a before _ _ => exact Or.inl (hbox a before.mem)
  | reckoned before last motion reach => exact Or.inr ⟨rfl, _, before, last, motion, reach⟩
  | interpolated before after hlat hlon =>
    cases hlat
    cases hlon
    exact Or.inl ((hbox _ before.mem).of_mem_uIcc (hbox _ after.mem) (Exact.between_mem_uIcc ..) (Exact.between_mem_uIcc ..))

namespace Tracker

/-- In exact coordinates only what is reckoned from course and speed leaves the extent, after any steps and whatever the retention
discarded at each of them. Where a known target is shown at a time is covered by the extent if it is a stored or an interpolated sample,
or an extrapolated one whose sample before has no motion; an interpolated one is between its neighbours in both coordinates. So a mark of
a drawing looks different only where a vessel is reckoned on from its last sample. -/
theorem covers_query [Reckoning] (keep : Retention ℚ) (steps : List (Step ℚ)) :
    let t := (fresh keep).runSteps steps
    (∀ mmsi x time s, t.target mmsi = .ok x → x.timeline.query time = .ok s →
      (s.kind = .extrapolated → ∃ a, x.timeline.IsBefore time a ∧ Navigation.hasMotion a.sog a.cog = .ok false) →
        Extent.Covers t.extent s.position ∧
          (s.kind = .interpolated → ∃ a b, x.timeline.IsBefore time a ∧ x.timeline.IsAfter time b ∧
            s.position.lat ∈ Set.uIcc a.position.lat b.position.lat ∧ s.position.lon ∈ Set.uIcc a.position.lon b.position.lon)) ∧
      ∀ moment strokes place p, Drawing.ofTracker t moment = .ok strokes → .mark place p true ∈ strokes →
        ∃ time mmsi x a, moment = some (.ok time) ∧ t.target mmsi = .ok x ∧ x.timeline.IsBefore time a ∧
          (∀ c ∈ x.timeline.samples, c.timestamp < time) ∧ Navigation.hasMotion a.sog a.cog = .ok true ∧
          Navigation.reckon a.position a.cog a.sog (time - a.timestamp) = .ok p := by
  intro t
  have hbox : ∀ {mmsi x}, t.find? mmsi = some x → ∀ a ∈ x.timeline.samples, Extent.Covers t.extent a.position :=
    fun hx _ ha => covers_of_mem_samples Exact.orderedOn (fun _ => ⟨trivial, trivial⟩) hx ha
  refine ⟨fun mmsi x time s hx hs hheld => ?_, fun moment strokes place p hdrawing hm => ?_⟩
  · have hfind := target_eq_ok_iff.1 hx
    have hanswers := Timeline.answers_of_query hs
    refine ⟨(hanswers.covers_or_reckoned (hbox hfind)).resolve_right ?_, fun hkind => ?_⟩
    · rintro ⟨hkind, a, hbefore, -, hmotion, -⟩
      obtain ⟨a', hbefore', hstill⟩ := hheld hkind
      rw [hbefore.unique hbefore', hstill] at hmotion
      cases hmotion
    · cases hanswers with
      | stored mem _ =>
        -- What is stored was observed.
        obtain ⟨r, -, -, hreport⟩ := reported_runSteps keep steps hfind mem
        obtain ⟨_, -, _, -, rfl⟩ := Sample.ofReport_eq_ok_iff.1 hreport
        cases hkind
      | held _ _ _ => cases hkind
      | reckoned _ _ _ _ => cases hkind
      | interpolated before after hlat hlon =>
        cases hlat
        cases hlon
        exact ⟨_, _, before, after, Exact.between_mem_uIcc .., Exact.between_mem_uIcc ..⟩
  · obtain ⟨time, mmsi, x, s, hmoment, hfind, hs, rfl, houtside⟩ := Drawing.mark_of_mem_ofTracker hdrawing hm
    refine ⟨time, mmsi, x, ?_⟩
    rcases (Timeline.answers_of_query hs).covers_or_reckoned (hbox hfind) with ⟨e, he, hcontains⟩ | ⟨-, a, hreckoned⟩
    · rw [he, Option.any_some, hcontains] at houtside
      cases houtside
    · exact ⟨a, hmoment, target_eq_ok_iff.2 hfind, hreckoned⟩

/-- Reckoning due north, a minute of arc for a mile. -/
@[reducible] def northward : Reckoning := ⟨fun start _ speed elapsed => .ok ⟨start.lat + speed * elapsed / 216000000, start.lon⟩⟩

/-- Two reports of a vessel with course and speed, the second one under a retention that keeps two samples. -/
def crossing : List (Step ℚ) :=
  [⟨.keepAll, .ingest (.message (.position ⟨1, 0, ⟨10, 20⟩, 0, 600, 511, true, 1⟩))⟩,
    ⟨.latest 2, .ingest (.message (.position ⟨1, 4000, ⟨12, 18⟩, 0, 600, 511, true, 1⟩))⟩]

/-- Between its reports the vessel is shown inside of the extent; an hour after the last one it is marked outside, where it was reckoned
to. -/
theorem covers_query_crossing :
    letI := northward
    let t := (fresh Retention.keepAll).runSteps crossing
    Extent.Covers t.extent ⟨21 / 2, 39 / 2⟩ ∧
      ∃ mmsi x a, t.target mmsi = .ok x ∧ x.timeline.IsBefore 3604000 a ∧
        Navigation.reckon a.position a.cog a.sog (3604000 - a.timestamp) = .ok ⟨13, 18⟩ := by
  obtain ⟨hquery, hmarks⟩ := @covers_query northward Retention.keepAll crossing
  have hcovers := hquery 1 _ 1000 ⟨1000, ⟨21 / 2, 39 / 2⟩, 0, 60, 511, .interpolated⟩ rfl (by decide +kernel) nofun
  obtain ⟨time, mmsi, x, a, hmoment, hx, hbefore, -, -, hreckon⟩ := hmarks (some (.ok 3604000))
    [.track 0 [⟨10, 20⟩, ⟨12, 18⟩] ['1'], .mark 0 ⟨13, 18⟩ true, .title 1 ⟨10, 12, 18, 20⟩, .extent ⟨10, 12, 18, 20⟩, .xAxis, .yAxis,
      .legend] 0 ⟨13, 18⟩ (by decide +kernel) (by decide +kernel)
  cases hmoment
  exact ⟨hcovers.1, mmsi, x, a, hx, hbefore, hreckon⟩

end Tracker
end VesselTraffic
