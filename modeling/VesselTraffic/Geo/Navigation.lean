import VesselTraffic.Number.Fault

/-!
# Positions and navigation

A position is a latitude and a longitude in degrees. The numbers that they are given in are a parameter of everything that keeps
or compares positions.

What tracking vessels asks of the numbers it is done in: their order, as it is computed, whole degrees, the tenths that courses
and speeds are reported in, and three estimates. A vessel has motion if its speed and its course are available; between two known
positions each coordinate is interpolated; beyond the last one the position is reckoned from course and speed.
-/

namespace VesselTraffic

/-- A latitude and a longitude in degrees. -/
structure Position (α : Type) where
  lat : α
  lon : α
deriving DecidableEq, Repr

/-- The numbers that vessels are tracked in. -/
class Navigation (α : Type) where
  /-- At most, as it is computed. -/
  le : α → α → Bool
  /-- Less than, as it is computed. -/
  lt : α → α → Bool
  /-- A whole number of degrees. -/
  degrees : Int → α
  /-- A number of tenths. -/
  tenths : Int → Except NumberFault α
  /-- Whether a speed and a course are both available. -/
  hasMotion : (speed course : α) → Except NumberFault Bool
  /-- A coordinate at a time between two times at which it is known. -/
  interpolate : (at_ : Int) → (t₁ : Int) → (x₁ : α) → (t₂ : Int) → (x₂ : α) → Except NumberFault α
  /-- The position some milliseconds after a known one, at a constant course and speed. -/
  reckon : (start : Position α) → (course speed : α) → (elapsed : Int) → Except NumberFault (Position α)

end VesselTraffic
