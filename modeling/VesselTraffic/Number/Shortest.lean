import VesselTraffic.Number.Double

/-!
# Shortest decimals

A double is shown with the fewest decimal digits that read back as the same double, and of those decimals with the nearest one.
The numbers that read back as `m · 2 ^ e` form an interval around it, closed if `m` is even. For one digit, two digits and so on
the decimals of that length next to the double, one on each side, are tried against the interval; seventeen digits always do.
-/

namespace VesselTraffic

/-- The positive decimal `digits · 10 ^ exponent`. -/
structure Decimal where
  digits : Nat
  exponent : Int
deriving DecidableEq, Repr

namespace Decimal

/-- The largest `k` with `10 ^ k ≤ n / d`, for a positive quotient. -/
def magnitude (n d : Nat) : Int :=
  let k : Int := ((Nat.toDigits 10 n).length : Int) - (Nat.toDigits 10 d).length
  if d * pow10 k.toNat ≤ n * pow10 (-k).toNat then k else k - 1

/-- The interval of the numbers that read back as a double, its ends written over one denominator. -/
structure Interval where
  value : Nat
  low : Nat
  high : Nat
  den : Nat
  closed : Bool
deriving Repr

/-- The numbers that read back as `mantissa · 2 ^ exponent`. Below a power of two the doubles lie closer together, so the interval
is narrower there. -/
def Interval.ofParts (mantissa : Nat) (exponent : Int) : Interval :=
  let scale := pow2 (exponent - 2).toNat
  let narrow := mantissa = pow2 52 ∧ -1074 < exponent
  { value := 4 * mantissa * scale
    low := (4 * mantissa - if narrow then 1 else 2) * scale
    high := (4 * mantissa + 2) * scale
    den := pow2 (2 - exponent).toNat
    closed := mantissa % 2 == 0 }

/-- Whether `digits · 10 ^ exponent` lies in the interval. -/
def Interval.holds (i : Interval) (digits : Nat) (exponent : Int) : Bool :=
  let x := digits * pow10 exponent.toNat * i.den
  let unit := pow10 (-exponent).toNat
  if i.closed then i.low * unit ≤ x && x ≤ i.high * unit else i.low * unit < x && x < i.high * unit

/-- The decimal with the given unit that reads back, the nearer of the two next to the value, the even one of two equally near. -/
def Interval.onGrid (i : Interval) (exponent : Int) : Option Decimal :=
  let n := i.value * pow10 (-exponent).toNat
  let d := i.den * pow10 exponent.toNat
  let below := n / d
  let nearer := (roundHalfEven n d).toNat
  let other := if nearer = below then below + 1 else below
  if i.holds nearer exponent then some ⟨nearer, exponent⟩
  else if i.holds other exponent then some ⟨other, exponent⟩
  else none

/-- The first of the grids with `length`, `length + 1`, … digits that has a decimal that reads back. -/
def Interval.search (i : Interval) (top : Int) (length : Nat) : Nat → Decimal
  | 0 => ⟨i.value / i.den, 0⟩
  | tries + 1 =>
    match i.onGrid (top - length + 1) with
    | some x => x
    | none => i.search top (length + 1) tries

/-- The digits without the zeros at the end. -/
def strip (digits : Text) : Text := (digits.reverse.dropWhile (· = '0')).reverse

/-- The shortest decimal that reads back as the positive double `mantissa · 2 ^ exponent`. -/
def shortest (mantissa : Nat) (exponent : Int) : Decimal :=
  let i := Interval.ofParts mantissa exponent
  i.search (magnitude i.value i.den) 1 17

end Decimal

/-- How a double is laid out: which powers of ten are written positionally, and how wide an exponent is at least. -/
structure DoubleLayout where
  lowestPositional : Int
  firstScientific : Int
  exponentWidth : Nat

namespace DoubleLayout

/-- Positional from 0.0001 up to below 10 ^ 16, with at least two digits in an exponent. -/
def standard : DoubleLayout := ⟨-4, 16, 2⟩

/-- An exponent with its sign, at least `width` digits wide. -/
def exponentText (width : Nat) (e : Int) : Text :=
  (if e < 0 then '-' else '+') :: Text.ofNatPadded width e.natAbs

/-- Digits of which the first stands for `10 ^ power`, laid out with a point or an exponent. -/
def write (l : DoubleLayout) (digits : Text) (power : Int) : Text :=
  if l.lowestPositional ≤ power ∧ power < l.firstScientific then
    if power < 0 then '0' :: '.' :: List.replicate (-power - 1).toNat '0' ++ digits
    else
      let whole := power.toNat + 1
      if digits.length ≤ whole then Text.padRight '0' whole digits ++ ['.', '0']
      else digits.take whole ++ '.' :: digits.drop whole
  else
    match digits with
    | [] => []
    | [d] => d :: 'e' :: exponentText l.exponentWidth power
    | d :: rest => d :: '.' :: rest ++ 'e' :: exponentText l.exponentWidth power

end DoubleLayout

namespace Double

/-- A double in the fewest digits that read back. -/
def toText (x : Float) : Text :=
  match DoubleParts.ofDouble x with
  | .nan => ['n', 'a', 'n']
  | .infinite negative => (if negative then ['-'] else []) ++ ['i', 'n', 'f']
  | .finite negative m e =>
    (if negative then ['-'] else []) ++
      if m = 0 then ['0', '.', '0']
      else
        let x := Decimal.shortest m e
        let digits := Text.ofNat x.digits
        DoubleLayout.standard.write (Decimal.strip digits) (x.exponent + digits.length - 1)

end Double
end VesselTraffic
