/-!
# Powers and rounded quotients

Doubles count in powers of two and their texts in powers of ten. Exponents may be negative, in which case the power stands in the
denominator; so each power is of a natural number and both sides of a comparison are scaled to whole numbers.

A quotient is rounded to the nearest integer; halfway between two integers the even one is taken. This is the only rounding of
the library: doubles, tenths, microseconds and written places all go through it.
-/

namespace VesselTraffic

/-- The power of two with the given exponent. -/
def pow2 (k : Nat) : Nat := Nat.pow 2 k

/-- The power of ten with the given exponent. -/
def pow10 (k : Nat) : Nat := Nat.pow 10 k

/-- A power of two is positive. -/
theorem pow2_pos (k : Nat) : 0 < pow2 k := Nat.pow_pos (by decide)

/-- Exponents add up. -/
theorem pow2_add (j k : Nat) : pow2 (j + k) = pow2 j * pow2 k := Nat.pow_add 2 j k

/-- Exponents add up. -/
theorem pow10_add (j k : Nat) : pow10 (j + k) = pow10 j * pow10 k := Nat.pow_add 10 j k

/-- The integer nearest to `n / d`, the even one of two equally near; `d` is positive. -/
def roundHalfEven (n : Int) (d : Nat) : Int :=
  let q := n / d
  let r := n % d
  if 2 * r < d then q else if (d : Int) < 2 * r then q + 1 else if q % 2 = 0 then q else q + 1

/-- The quotient of `n / d` without its fraction; `d` is positive. -/
def truncate (n : Int) (d : Nat) : Int := n.tdiv d

/-- A rounded quotient is at most half a unit off. -/
theorem roundHalfEven_within (n : Int) {d : Nat} (h : 0 < d) :
    2 * (n - roundHalfEven n d * d) ≤ d ∧ -(d : Int) ≤ 2 * (n - roundHalfEven n d * d) := by
  have hd : (0 : Int) < d := by omega
  have e := Int.mul_ediv_add_emod n d
  have r0 := Int.emod_nonneg n (show (d : Int) ≠ 0 by omega)
  have r1 := Int.emod_lt_of_pos n hd
  have hq : n / d * d = d * (n / d) := Int.mul_comm _ _
  have hq1 : (n / d + 1) * d = d * (n / d) + d := by rw [Int.add_mul, Int.one_mul, hq]
  unfold roundHalfEven
  simp only
  split
  · rw [hq]; omega
  · split
    · rw [hq1]; omega
    · split
      · rw [hq]; omega
      · rw [hq1]; omega

/-- A whole quotient is its own rounding. -/
theorem roundHalfEven_mul (n : Int) {d : Nat} (h : 0 < d) : roundHalfEven (n * d) d = n := by
  have hd : (d : Int) ≠ 0 := by omega
  unfold roundHalfEven
  rw [Int.mul_ediv_cancel _ hd, Int.mul_emod_left]
  simp [h]

example : roundHalfEven 5 2 = 2 ∧ roundHalfEven 7 2 = 4 ∧ roundHalfEven (-5) 2 = -2 ∧ roundHalfEven (-7) 4 = -2 := by decide

end VesselTraffic
