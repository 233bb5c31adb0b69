import VesselTraffic.Geo.Extent
import VesselTraffic.Number.Fixed
import VesselTraffic.Number.Quantity

/-!
# Navigation on the sphere

Positions on a sphere with the mean radius of the earth. Course and speed lead along a great circle; the longitude is brought back
into the half-open range from -180 to 180 degrees. A coordinate between two known ones lies on the line through both; at either
end it is the known one, so that an infinite neighbour does no harm there.
-/

namespace VesselTraffic.Sphere

/-- The mean radius of the earth in meters. -/
def earthRadius : Nat := 6371000

/-- Meters in a nautical mile. -/
def metersPerMile : Nat := 1852

/-- Milliseconds in an hour. -/
def millisPerHour : Nat := 3600000

/-- The ratio of a circle to its diameter. -/
def pi : Float := 3.141592653589793

/-- Degrees as radians. -/
def radians (x : Float) : Float := x * (pi / 180)

/-- A quantity of degrees as radians. -/
def angle (q : Quantity) : Except NumberFault Float :=
  if q.fitsWord then .ok (radians q.nearest) else .error .tooWideForAngle

/-- Radians as degrees. -/
def degrees (x : Float) : Float := x * (180 / pi)

/-- Nautical miles as meters. -/
def meters (miles : Quantity) : Quantity := miles.times metersPerMile

/-- Milliseconds as hours. -/
def hours (ms : Quantity) : Except NumberFault Float := ms.dividedBy millisPerHour

/-- A longitude brought into the range from -180 up to, but not including, 180 degrees. -/
def wrapLongitude (lon : Float) : Float := Double.modulo (lon + 540) 360 - 180

/-- The position reached along a great circle from a bearing, over an arc that is given by its angle; all in radians. -/
def along (lat lon course arc : Float) : Float × Float :=
  let lat' := Float.asin (lat.sin * arc.cos + lat.cos * arc.sin * course.cos)
  (lat', lon + Float.atan2 (course.sin * arc.sin * lat.cos) (arc.cos - lat.sin * lat'.sin))

/-- The position reached along a great circle from a bearing and a distance in meters. Without a distance it is the start. -/
def destination (start : Position Quantity) (bearing distance : Quantity) : Except NumberFault (Position Quantity) :=
  if distance.isZero then .ok start
  else
    (angle start.lat).bind fun lat => (angle start.lon).bind fun lon => (angle bearing).bind fun course =>
      (distance.dividedBy earthRadius).map fun arc =>
        let reached := along lat lon course arc
        ⟨.real (degrees reached.1), .real (wrapLongitude (degrees reached.2))⟩

/-- The position after some milliseconds at a constant course in degrees and speed in knots. -/
def reckon (start : Position Quantity) (course speed : Quantity) (elapsed : Int) :
    Except NumberFault (Position Quantity) :=
  (hours (.whole elapsed)).bind fun h => speed.toDouble.bind fun s => destination start course (meters (.real (s * h)))

/-- The point over `t` of the line through two points, taken from the first and, if that has no value, from the second. -/
def onLine (t t₁ x₁ t₂ x₂ : Float) : Float :=
  let slope := (x₂ - x₁) / (t₂ - t₁)
  let fromFirst := slope * (t - t₁) + x₁
  if Double.isNaN fromFirst then
    let fromSecond := slope * (t - t₂) + x₂
    if Double.isNaN fromSecond && x₁ == x₂ then x₁ else fromSecond
  else fromFirst

/-- The value over `t` between two points, the nearer one's outside of them. -/
def between (t t₁ x₁ t₂ x₂ : Float) : Float :=
  if t₂ < t then x₂
  else if t < t₁ then x₁
  else if t₂ ≤ t then x₂
  else if t₁ == t then x₁
  else onLine t t₁ x₁ t₂ x₂

/-- A coordinate at a time between two times at which it is known. -/
def interpolate (t t₁ : Int) (x₁ : Quantity) (t₂ : Int) (x₂ : Quantity) : Except NumberFault Quantity :=
  if !(x₁.fitsWord && x₂.fitsWord) then .error .tooWideToInterpolate
  else
    match Double.ofInt t, Double.ofInt t₁, Double.ofInt t₂ with
    | .ok t, .ok t₁, .ok t₂ => .ok (.real (between t t₁ x₁.nearest t₂ x₂.nearest))
    | _, _, _ => .error .integerTooLarge

/-- A number of tenths. -/
def tenths (n : Int) : Except NumberFault Quantity := (Double.ofInt n).map fun x => .real (x / 10)

/-- Tenths of a knot from here on say that a speed is not available. -/
def speedNotAvailable : Int := 1023

/-- Tenths of a degree from here on say that a course is not available. -/
def courseNotAvailable : Int := 3600

/-- Whether a speed and a course, in whole tenths, are both available; the course counts only if the speed is. -/
def hasMotion (speed course : Quantity) : Except NumberFault Bool :=
  (speed.times 10).round.bind fun s =>
    if s < speedNotAvailable then (course.times 10).round.map fun c => decide (c < courseNotAvailable) else .ok false

instance : Navigation Quantity where
  le := Quantity.le
  lt := Quantity.lt
  degrees := .whole
  tenths := tenths
  hasMotion := hasMotion
  interpolate := interpolate
  reckon := reckon

/-- The middle of two coordinates. -/
def middle (a b : Quantity) : Float :=
  match a.add b with
  | .whole n => (Double.ofRatio? n 2).getD (Double.infinity (decide (n < 0)))
  | .real x => x / 2

/-- The middle of a box. -/
def center (e : Extent Quantity) : Position Float := ⟨middle e.latMin e.latMax, middle e.lonMin e.lonMax⟩

/-- A box as it is shown, its sides with three places. -/
def extentText (e : Extent Quantity) : Text :=
  let side := fun (name : String) (x : Quantity) => name.toList ++ '=' :: Double.fixed 3 x.nearest
  "<BoundingBox(".toList ++
    [','].intercalate [side "LATMIN" e.latMin, side "LATMAX" e.latMax, side "LONMIN" e.lonMin, side "LONMAX" e.lonMax] ++
    ")>".toList

/-- A box as it is shown, if there is one. -/
def extentText? : Option (Extent Quantity) → Text
  | none => "None".toList
  | some e => extentText e

end VesselTraffic.Sphere
