import VesselTraffic.Proofs.Record.Positions
import VesselTraffic.Proofs.Timeline.Answering
import VesselTraffic.Proofs.Tracking.Bounds

/-!
# Positions without motion

A sample without course or speed that is the last one of its timeline is held in place: whenever the timeline is asked from then on, it
answers with the position of that sample (`Timeline.query_put_still`). A row whose course or speed is missing makes such a sample, so its
position is neither lost nor moved on its way through the tracker (`Row.position_stands`).
-/

namespace VesselTraffic

/-- From the last sample on, if it has no motion, a timeline answers with its position. -/
theorem Timeline.query_put_still {α : Type} [Navigation α] {t : Timeline α} {s : Sample α}
    (hlast : ∀ x ∈ t.samples, x.timestamp ≤ s.timestamp) (hstill : Navigation.hasMotion s.sog s.cog = .ok false) {now : Int}
    (hnow : s.timestamp ≤ now) : ∃ a, (t.put s).query now = .ok a ∧ a.position = s.position := by
  have hfind : (t.put s).find? s.timestamp = some s := by rw [find?_put, if_pos rfl]
  have hnone : ∀ c > s.timestamp, (t.put s).find? c = none := by
    intro c hc
    refine Option.eq_none_iff_forall_ne_some.2 fun x hx => ?_
    obtain ⟨hmem, rfl⟩ := find?_eq_some_iff.1 hx
    rcases mem_samples_put hmem with rfl | hold
    · exact absurd hc (Int.lt_irrefl _)
    · exact absurd hc (Int.not_lt.2 (hlast x hold))
  -- At its own time the sample is stored; later there is none, and it is the one to reckon from.
  rcases Int.lt_or_eq_of_le hnow with hlt | rfl
  · have hbefore : LastBefore (t.put s).find? now s := by
      refine ⟨hfind, hlt, fun c hc _ => Int.not_lt.1 fun hgt => ?_⟩
      rw [hnone c hgt] at hc
      cases hc
    refine ⟨estimate s now .extrapolated s.position, ?_, rfl⟩
    rw [query_beyond (hnone now hlt) hbefore fun c hc => hnone c (Int.lt_trans hlt hc), extrapolated, hstill]
    rfl
  · exact ⟨s, query_stored hfind, rfl⟩

/-- The sample of a report that says that its course or its speed is not available has no motion. -/
theorem Sample.exists_still {r : PositionReport Quantity} (hcog : r.cog.natAbs < pow10 15) (hsog : r.sog.natAbs < pow10 15)
    (h : r.sog = Row.speedNotAvailable ∨ r.cog = Row.courseNotAvailable) :
    ∃ s, ofReport r = .ok s ∧ s.timestamp = r.timestamp ∧ s.position = r.position ∧
      Navigation.hasMotion s.sog s.cog = .ok false := by
  obtain ⟨course, hcourse, -⟩ := Sphere.exists_round_tenths hcog
  obtain ⟨speed, hspeed, -⟩ := Sphere.exists_round_tenths hsog
  refine ⟨⟨r.timestamp, r.position, course, speed, r.heading, .observed⟩, ?_, rfl, rfl, ?_⟩
  · exact ofReport_eq_ok_iff.2 ⟨course, hcourse, speed, hspeed, rfl⟩
  · exact Sphere.hasMotion_of_notAvailable hsog hspeed hcourse h

namespace Tracker

/-- After a message with a sample that is the last one of its vessel and has no motion, a tracker that keeps every sample and admits the
vessel answers with its position from then on. -/
theorem query_ingest_still {α : Type} [Navigation α] {t : Tracker α} (ht : t.Consistent) (hkeep : t.retention = Retention.keepAll)
    {m : Message α} (hadmits : t.Admits m.mmsi) {s : Sample α} (hs : m.sample? = some s)
    (hlast : ∀ x ∈ (t.timelineOf m.mmsi).samples, x.timestamp ≤ s.timestamp)
    (hstill : Navigation.hasMotion s.sog s.cog = .ok false) :
    (t.ingest (.message m)).result = .ok true ∧
      ∃ x, (t.ingest (.message m)).state.target m.mmsi = .ok x ∧
        ∀ now, s.timestamp ≤ now → ∃ a, x.timeline.query now = .ok a ∧ a.position = s.position := by
  have hfind : (t.ingest (.message m)).state.find? m.mmsi = some (t.taken m).state :=
    (find?_ingest hadmits m.mmsi).trans (if_pos rfl)
  have htimeline : (t.taken m).state.timeline = (t.timelineOf m.mmsi).put s := by
    rw [taken, Target.timeline_update (ht.isOf m.mmsi), hs, hkeep]
    rfl
  refine ⟨(ht.ingest hadmits (Message.acceptable_of_sample? hs)).1, _, target_eq_ok_iff.2 hfind, fun now hnow => ?_⟩
  rw [htimeline]
  exact Timeline.query_put_still hlast hstill hnow

end Tracker

/-- A row that reports a position becomes a valid report of it, whatever it says of course, speed and heading. If it says nothing of the
course or of the speed, the position stays where it is: after the report was ingested by any tracker that keeps every sample and has no
later one of the vessel, the vessel is at that position at all times from then on. Every tracker ingests the report that knows the vessel
or can write its MMSI. -/
theorem Row.position_stands {row : Row} {mmsi time : Int} {lat lon : Float} (h : row.Locates mmsi time lat lon) :
    ∃ r : PositionReport Quantity, row.item = .ok (.message (.position r)) ∧ r.isValid = true ∧ r.mmsi = mmsi ∧ r.timestamp = time ∧
      r.position = ⟨.real lat, .real lon⟩ ∧
      (row.Motionless → ∀ operations : List (Tracker.Operation Quantity),
        let t := (Tracker.fresh Retention.keepAll).run operations
        let o := t.ingest (.message (.position r))
        t.Admits mmsi → (∀ x, t.target mmsi = .ok x → ∀ s ∈ x.timeline.samples, s.timestamp ≤ time) →
          o.result = .ok true ∧
            ∃ x, o.state.target mmsi = .ok x ∧
              ∀ now, time ≤ now → ∃ s, x.timeline.query now = .ok s ∧ s.position = ⟨.real lat, .real lon⟩) := by
  obtain ⟨r, hitem, hvalid, rfl, rfl, hposition, hcog, hsog, hmissing⟩ := h.exists_report
  refine ⟨r, hitem, hvalid, rfl, rfl, hposition, fun hmotionless operations => ?_⟩
  intro t o hadmits hlater
  obtain ⟨s, hs, htime, hplace, hstill⟩ := Sample.exists_still hcog hsog (hmissing hmotionless)
  have hsample : (Message.position r).sample? = some s :=
    Message.sample?_eq_some_iff.2 ⟨r, Message.validReport?_eq_some_iff.2 ⟨rfl, hvalid⟩, hs⟩
  have hlast : ∀ x ∈ (t.timelineOf r.mmsi).samples, x.timestamp ≤ s.timestamp := by
    intro x hx
    obtain ⟨y, hy, hmem⟩ := Tracker.mem_samples_timelineOf_iff.1 hx
    rw [htime]
    exact hlater y (Tracker.target_eq_ok_iff.2 hy) x hmem
  have hconsistent : t.Consistent := Tracker.kept_consistent.run_fresh (Tracker.consistent_fresh _) operations
  have hkeep : t.retention = Retention.keepAll := (Tracker.kept_retention _).run_fresh rfl operations
  rw [← hposition, ← hplace, ← htime]
  exact Tracker.query_ingest_still (m := .position r) hconsistent hkeep hadmits hsample hlast hstill

/-- A row without a speed and without a column for the heading, behind a report of the vessel in motion: a minute later the vessel is
where the row says. -/
theorem Row.position_stands_without_speed :
    let row : Row := [("message_id".toList, .whole 1), ("MMSI".toList, .text ['3']), ("timestamp".toList, .whole 9000),
      ("lat".toList, .real 55.5), ("lon".toList, .whole 12), ("course".toList, .real 45.5), ("speed".toList, .null)]
    let t := (Tracker.fresh Retention.keepAll).run
      [.ingest (.message (.position ⟨3, 5000, ⟨.whole 55, .whole 12⟩, 900, 120, 511, true, 1⟩))]
    ∃ r, row.item = .ok (.message (.position r)) ∧
      ∃ x, (t.ingest (.message (.position r))).state.target 3 = .ok x ∧
        ∃ s, x.timeline.query 69000 = .ok s ∧ s.position = ⟨.real 55.5, .real 12⟩ := by
  intro row t
  have hbounds : ∀ {n : Int} {x : Float}, (Quantity.whole (-n)).le (.real x) = true → (Quantity.real x).le (.whole n) = true →
      ∃ q, (Quantity.real x).value? = some q ∧ -(n : ℚ) ≤ q ∧ q ≤ n := by
    intro n x hlow hhigh
    obtain ⟨q, hq, hlow, hhigh⟩ := Quantity.exists_value_of_bounds hlow hhigh
    exact ⟨q, hq, by exact_mod_cast hlow, hhigh⟩
  have hlocates : row.Locates 3 9000 55.5 12 :=
    { kind := ⟨.whole 1, 1, rfl, rfl, by decide⟩
      sender := ⟨.text ['3'], rfl, by rfl⟩
      timestamp := ⟨.whole 9000, rfl, rfl⟩
      latitude := ⟨.real 55.5, rfl, rfl⟩
      longitude := ⟨.whole 12, rfl, rfl⟩
      latitude_bounds := hbounds (n := 90) (by decide +kernel) (by decide +kernel)
      longitude_bounds := hbounds (n := 180) (by decide +kernel) (by decide +kernel)
      course := ⟨.real 45.5, rfl, Or.inr ⟨455, by rfl, by decide +kernel⟩⟩
      speed := ⟨.null, rfl, Or.inl rfl⟩
      heading := Or.inl rfl }
  have hmotionless : row.Motionless := ⟨"speed", by simp, .null, rfl, rfl⟩
  have hearlier : (t.find? 3).map (fun x => x.timeline.samples.all fun s => decide (s.timestamp ≤ 9000)) = some true := by
    decide +kernel
  obtain ⟨r, hitem, -, -, -, -, hstands⟩ := position_stands hlocates
  obtain ⟨-, x, hx, hnow⟩ := hstands hmotionless _ (Or.inr (by decide +kernel)) fun x hx => by
    rw [Tracker.target_eq_ok_iff.1 hx] at hearlier
    simpa using hearlier
  exact ⟨r, hitem, x, hx, hnow 69000 (by decide)⟩

end VesselTraffic
