import VesselTraffic.Number.Double

/-!
# Written places

A double is written with a fixed number of places after the point, or with a fixed number of digits and an exponent. Both round
its exact binary value, a half to even, and keep the sign of a negative zero.
-/

namespace VesselTraffic.Double

/-- A whole number of units of the last place, with the point put in. -/
def placePoint (places n : Nat) : Text :=
  let digits := Text.ofNatPadded (places + 1) n
  let whole := digits.length - places
  if places = 0 then digits else digits.take whole ++ '.' :: digits.drop whole

/-- The magnitude `mantissa · 2 ^ exponent` with the given number of places. -/
def fixedMagnitude (places mantissa : Nat) (exponent : Int) : Text :=
  let x : Dyadic := ⟨mantissa, exponent⟩
  placePoint places (roundHalfEven (x.num * pow10 places) x.den).toNat

/-- The sign of a number as it is written: a minus sign or nothing. -/
def signText (negative : Bool) : Text := if negative then ['-'] else []

/-- The two doubles without digits. -/
def nonFiniteText : DoubleParts → Text
  | .infinite negative => signText negative ++ ['i', 'n', 'f']
  | _ => ['n', 'a', 'n']

/-- A double with a fixed number of places. -/
def fixed (places : Nat) (x : Float) : Text :=
  match DoubleParts.ofDouble x with
  | .finite negative m e => signText negative ++ fixedMagnitude places m e
  | parts => nonFiniteText parts

example : fixed 3 0.0005 = ['0', '.', '0', '0', '1'] := by decide +kernel
example : fixed 0 2.5 = ['2'] ∧ fixed 1 (-0.25) = ['-', '0', '.', '2'] := by decide +kernel

end VesselTraffic.Double
