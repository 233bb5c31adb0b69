import VesselTraffic.Geo.Sphere
import VesselTraffic.Proofs.Number.DoubleArithmetic

/-!
# Course and speed that are not available

A course and a speed come in whole tenths, are made numbers of degrees and knots, and are made tenths again where it is asked whether
they are available. An integer of at most fifteen digits stands both conversions (`exists_round_tenths`), and the two that say that a
course or a speed is not available come out as they went in, so there is no motion with one of them (`hasMotion_of_notAvailable`).
-/

namespace VesselTraffic.Sphere

/-- An integer of at most fifteen digits can be made a number of tenths, and that can be made an integer again. -/
theorem exists_round_tenths {n : Int} (h : n.natAbs < pow10 15) : ∃ q, tenths n = .ok q ∧ ∃ r, (q.times 10).round = .ok r := by
  have hbinary : pow10 15 < 2 ^ 50 := by decide +kernel
  obtain ⟨x, hx⟩ := Double.exists_ofInt (n := n) ((Nat.le_of_lt h).trans (by decide +kernel))
  have hupTo := Double.upTo_ofInt (by decide) (h.trans hbinary) hx
  refine ⟨.real (x / 10), by rw [tenths, hx]; rfl, ?_⟩
  exact Double.exists_round_of_upTo
    (DoubleParts.upTo_mul_ten (by decide) (by decide) (DoubleParts.upTo_div_ten (by decide) (by decide) hupTo))

/-- The tenths that say that a speed is not available come out of the conversions as they went in. -/
theorem round_tenths_speedNotAvailable : ((tenths speedNotAvailable).bind fun q => (q.times 10).round) = .ok speedNotAvailable := by
  decide +kernel

/-- The tenths that say that a course is not available come out of the conversions as they went in. -/
theorem round_tenths_courseNotAvailable :
    ((tenths courseNotAvailable).bind fun q => (q.times 10).round) = .ok courseNotAvailable := by
  decide +kernel

/-- There is no motion with a speed or a course that is not available, whatever the other one is. -/
theorem hasMotion_of_notAvailable {sog cog : Int} {speed course : Quantity} (hsog : sog.natAbs < pow10 15)
    (hspeed : tenths sog = .ok speed) (hcourse : tenths cog = .ok course) (h : sog = speedNotAvailable ∨ cog = courseNotAvailable) :
    hasMotion speed course = .ok false := by
  obtain ⟨q, hq, s, hs⟩ := exists_round_tenths hsog
  cases hspeed.symm.trans hq
  rcases h with rfl | rfl
  · have hround : (speed.times 10).round = .ok speedNotAvailable := by
      have hround := round_tenths_speedNotAvailable
      rwa [hspeed] at hround
    rw [hasMotion, hround]
    rfl
  · have hround : (course.times 10).round = .ok courseNotAvailable := by
      have hround := round_tenths_courseNotAvailable
      rwa [hcourse] at hround
    rw [hasMotion, hs]
    simp only [Except.bind, hround]
    split <;> rfl

end VesselTraffic.Sphere
