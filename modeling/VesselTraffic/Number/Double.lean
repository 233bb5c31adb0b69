import VesselTraffic.Number.Fault
import VesselTraffic.Number.Rounding

/-!
# Doubles taken apart and put together

A double is not a number, infinite, or a sign with `mantissa · 2 ^ exponent`. Everything exact is done on those three parts with
whole numbers: rounding to an integer, the remainder of a division, the double nearest to a quotient of integers. A quotient is
first rounded to 53 binary digits (`nearest`), which is the whole rounding as long as the result is a normal double.
-/

namespace VesselTraffic

/-- The number `mantissa · 2 ^ exponent`. -/
structure Dyadic where
  mantissa : Int
  exponent : Int
deriving DecidableEq, Repr

namespace Dyadic

/-- The numerator of a binary number written over a power of two. -/
def num (x : Dyadic) : Int := x.mantissa * pow2 x.exponent.toNat

/-- The power of two below `num`. -/
def den (x : Dyadic) : Nat := pow2 (-x.exponent).toNat

/-- The nearest integer, the even one of two equally near. -/
def round (x : Dyadic) : Int := roundHalfEven x.num x.den

/-- The integer part. -/
def trunc (x : Dyadic) : Int := truncate x.num x.den

/-- The exponent that gives the positive quotient `n / d` exactly 53 binary digits before the point. -/
def exponentFor (n d : Nat) : Int :=
  let l : Int := (n.log2 : Int) - d.log2
  if d * pow2 l.toNat ≤ n * pow2 (-l).toNat then l - 52 else l - 53

/-- The positive quotient `n / d` as a whole number of units `2 ^ e`, rounded half to even. -/
def units (n d : Nat) (e : Int) : Int := roundHalfEven (n * pow2 (-e).toNat : Nat) (d * pow2 e.toNat)

/-- The quotient `n / d` rounded to 53 binary digits, a half to even; `d` is positive. -/
def nearest (n : Int) (d : Nat) : Dyadic :=
  if n = 0 then ⟨0, 0⟩
  else
    let e := exponentFor n.natAbs d
    ⟨n.sign * units n.natAbs d e, e⟩

/-- The quotient `n / d` rounded to 53 binary digits, unless that lies beyond the doubles. -/
def quotient (n : Int) (d : Nat) : Except NumberFault Dyadic :=
  let x := nearest n d
  if (x.mantissa.natAbs.log2 : Int) + x.exponent < 1024 then .ok x else .error .quotientTooLarge

end Dyadic

/-- A double by its parts. -/
inductive DoubleParts where
  | nan
  | infinite (negative : Bool)
  | finite (negative : Bool) (mantissa : Nat) (exponent : Int)
deriving DecidableEq, Repr

namespace DoubleParts

/-- The parts of a double, read off its 64 bits. -/
def ofDouble (x : Float) : DoubleParts :=
  let bits := x.toBits.toNat
  let negative := decide (pow2 63 ≤ bits)
  let power : Nat := bits / pow2 52 % 2048
  let fraction : Nat := bits % pow2 52
  if power = 2047 then if fraction = 0 then .infinite negative else .nan
  else if power = 0 then .finite negative fraction (-1074)
  else .finite negative (pow2 52 + fraction) ((power : Int) - 1075)

end DoubleParts

namespace Double

/-- The double with the given sign and magnitude bits. -/
def ofMagnitude (negative : Bool) (bits : Nat) : Float :=
  Float.ofBits (UInt64.ofNat (if negative then pow2 63 + bits else bits))

/-- The infinite double of the given sign. -/
def infinity (negative : Bool) : Float := ofMagnitude negative (2047 * pow2 52)

/-- The double that is not a number. -/
def nan : Float := ofMagnitude false (4095 * pow2 51)

/-- The double `± mantissa · 2 ^ exponent` for a mantissa of at most 53 binary digits; `none` beyond the doubles. What lies
below the smallest normal double is rounded to a multiple of the smallest positive one. -/
def ofParts? (negative : Bool) (mantissa : Nat) (exponent : Int) : Option Float :=
  if mantissa = 0 then some (ofMagnitude negative 0)
  else
    let top := (mantissa.log2 : Int) + exponent
    if 1023 < top then none
    else if top < -1022 then
      some (ofMagnitude negative (Dyadic.round ⟨mantissa, exponent + 1074⟩).toNat)
    else
      let shifted := (Dyadic.round ⟨mantissa, 52 - (mantissa.log2 : Int)⟩).toNat
      some (ofMagnitude negative ((top + 1022).toNat * pow2 52 + shifted))

/-- The double nearest to the quotient `n / d`; `none` beyond the doubles. -/
def ofRatio? (n : Int) (d : Nat) : Option Float :=
  let x := Dyadic.nearest n d
  ofParts? (decide (n < 0)) x.mantissa.natAbs x.exponent

/-- The double nearest to an integer. -/
def ofInt (n : Int) : Except NumberFault Float :=
  match ofRatio? n 1 with
  | some x => .ok x
  | none => .error .integerTooLarge

/-- The double nearest to the quotient of two integers. -/
def quotient (n : Int) (d : Nat) : Except NumberFault Float :=
  match ofRatio? n d with
  | some x => .ok x
  | none => .error .quotientTooLarge

/-- A double as a binary number, unless it is infinite or not a number. -/
def toDyadic (x : Float) : Except NumberFault Dyadic :=
  match DoubleParts.ofDouble x with
  | .nan => .error .nanToInteger
  | .infinite _ => .error .infinityToInteger
  | .finite negative m e => .ok ⟨if negative then -(m : Int) else m, e⟩

/-- The integer nearest to a double, the even one of two equally near. -/
def round (x : Float) : Except NumberFault Int := (toDyadic x).map Dyadic.round

/-- The integer part of a double. -/
def trunc (x : Float) : Except NumberFault Int := (toDyadic x).map Dyadic.trunc

/-- A double that is not a number. -/
def isNaN (x : Float) : Bool := decide (DoubleParts.ofDouble x = .nan)

/-- The remainder of dividing a double by a positive integer, with the sign of the dividend; it is exact. -/
def remainder (x : Float) (n : Nat) : Float :=
  match DoubleParts.ofDouble x with
  | .finite negative m e =>
    let unit : Nat := pow2 (-e).toNat
    (ofParts? negative (m * pow2 e.toNat % (n * unit)) (-((-e).toNat : Int))).getD nan
  | _ => nan

/-- The remainder of dividing a double by a positive integer, taken into the range from zero to the divisor. -/
def modulo (x : Float) (n : Nat) : Float :=
  let r := remainder x n
  if r == 0 then 0 else if r < 0 then r + Float.ofNat n else r

end Double
end VesselTraffic
