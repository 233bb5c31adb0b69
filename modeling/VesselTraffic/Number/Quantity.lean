import VesselTraffic.Number.Double

/-!
# Quantities

A coordinate, a course or a speed may be given as an integer or as a double, and an integer that nothing is computed from stays one.
Two quantities compare as the exact numbers that they are; a double that is not a number compares with nothing.
-/

namespace VesselTraffic

/-- A number given as an integer or as a double. -/
inductive Quantity where
  | whole (n : Int)
  | real (x : Float)
deriving DecidableEq, Repr

namespace Quantity

/-- The nearest double. -/
def toDouble : Quantity → Except NumberFault Float
  | whole n => Double.ofInt n
  | real x => .ok x

/-- The nearest double, infinite for an integer beyond the doubles. -/
def nearest : Quantity → Float
  | whole n => (Double.ofRatio? n 1).getD (Double.infinity (decide (n < 0)))
  | real x => x

/-- An integer that 64 binary digits hold, with or without a sign. -/
def isWord (n : Int) : Bool := -(pow2 63 : Int) ≤ n && n < pow2 64

/-- A double, or an integer that 64 binary digits hold. -/
def fitsWord : Quantity → Bool
  | whole n => isWord n
  | real _ => true

/-- The quotient by a positive integer as a double. -/
def dividedBy (q : Quantity) (d : Nat) : Except NumberFault Float :=
  match q with
  | whole n => Double.quotient n d
  | real x => .ok (x / Float.ofNat d)

/-- The product with an integer. -/
def times (q : Quantity) (k : Int) : Quantity :=
  match q with
  | whole n => .whole (n * k)
  | real x => .real (x * Float.ofInt k)

/-- The sum of two quantities. -/
def add : Quantity → Quantity → Quantity
  | whole m, whole n => .whole (m + n)
  | a, b => .real (a.nearest + b.nearest)

/-- The difference of two quantities. -/
def sub : Quantity → Quantity → Quantity
  | whole m, whole n => .whole (m - n)
  | a, b => .real (a.nearest - b.nearest)

/-- The nearest integer, the even one of two equally near. -/
def round : Quantity → Except NumberFault Int
  | whole n => .ok n
  | real x => Double.round x

/-- A quantity that is zero. -/
def isZero : Quantity → Bool
  | whole n => n = 0
  | real x => x == 0

/-- A comparison of an integer with a double, done on the integer and the exact quotient that the double is. -/
def compareWhole (n : Int) (x : Float) (exact : Int → Int → Bool) : Bool :=
  match DoubleParts.ofDouble x with
  | .nan => false
  | .infinite negative => exact (if negative then 1 else -1) 0
  | .finite negative m e =>
    let d : Dyadic := ⟨if negative then -(m : Int) else m, e⟩
    exact (n * d.den) d.num

/-- Less than. -/
def lt : Quantity → Quantity → Bool
  | whole m, whole n => m < n
  | real x, real y => x < y
  | whole m, real y => compareWhole m y fun a b => a < b
  | real x, whole n => compareWhole n x fun a b => b < a

/-- At most. -/
def le : Quantity → Quantity → Bool
  | whole m, whole n => m ≤ n
  | real x, real y => x ≤ y
  | whole m, real y => compareWhole m y fun a b => a ≤ b
  | real x, whole n => compareWhole n x fun a b => b ≤ a

end Quantity
end VesselTraffic
