import VesselTraffic.Proofs.Number.DoubleRange

/-!
# Quotients of 53 binary digits

Where the 53 binary digits of a quotient begin is told by the powers of two that it reaches (`Dyadic.le_exponentFor_iff`). Rounding to
them keeps a quotient at or above the powers of two that it reached (`Dyadic.pow2_mul_den_le`) and is off by half a unit at most
(`Dyadic.nearest_within`).
-/

namespace VesselTraffic

/-- A quotient is rounded to the integer that it is less than half a unit from. -/
theorem roundHalfEven_eq {n k : Int} {d : Nat} (h : 2 * (n - k * d) < d) (h' : -(d : Int) < 2 * (n - k * d)) : roundHalfEven n d = k := by
  have hd : 0 < d := by omega
  obtain ⟨hle, hge⟩ := roundHalfEven_within n hd
  refine Int.le_antisymm (Int.not_lt.1 fun hlt => ?_) (Int.not_lt.1 fun hlt => ?_)
  · have hmul := mul_add_le_of_lt hlt d
    omega
  · have hmul := mul_add_le_of_lt hlt d
    omega

/-- A quotient that is at least a natural number in size is rounded to at least that. -/
theorem le_natAbs_roundHalfEven {n : Int} {k d : Nat} (hd : 0 < d) (h : k * d ≤ n.natAbs) : k ≤ (roundHalfEven n d).natAbs := by
  rcases Int.natAbs_eq n with hn | hn
  · have hle : (k : Int) ≤ roundHalfEven n d := le_roundHalfEven hd (by rw [hn]; exact_mod_cast h)
    omega
  · have hle : roundHalfEven n d ≤ -(k : Int) := roundHalfEven_le hd (by rw [hn, Int.neg_mul]; exact Int.neg_le_neg (by exact_mod_cast h))
    omega

namespace Dyadic

/-- A quotient is at least a power of two exactly if its 53 binary digits begin there or above. -/
theorem le_exponentFor_iff {n d : Nat} (hn : n ≠ 0) (hd : d ≠ 0) (j : Nat) : (j : Int) ≤ exponentFor n d + 52 ↔ d * pow2 j ≤ n := by
  have hnlow : pow2 n.log2 ≤ n := Nat.log2_self_le hn
  have hnhigh : n < pow2 (n.log2 + 1) := Nat.lt_log2_self
  have hdlow : pow2 d.log2 ≤ d := Nat.log2_self_le hd
  have hdhigh : d < pow2 (d.log2 + 1) := Nat.lt_log2_self
  have hbelow : ∀ {i}, d.log2 + i + 1 ≤ n.log2 → d * pow2 i ≤ n := by
    intro i hi
    calc d * pow2 i ≤ pow2 (d.log2 + 1) * pow2 i := Nat.mul_le_mul_right _ hdhigh.le
      _ = pow2 (d.log2 + 1 + i) := (pow2_add _ _).symm
      _ ≤ pow2 n.log2 := pow2_le (by omega)
      _ ≤ n := hnlow
  have habove : ∀ {i}, n.log2 + 1 ≤ d.log2 + i → n < d * pow2 i := by
    intro i hi
    calc n < pow2 (n.log2 + 1) := hnhigh
      _ ≤ pow2 (d.log2 + i) := pow2_le hi
      _ = pow2 d.log2 * pow2 i := pow2_add _ _
      _ ≤ d * pow2 i := Nat.mul_le_mul_right _ hdlow
  have hone : pow2 0 = 1 := rfl
  rcases Nat.lt_trichotomy (d.log2 + j) n.log2 with hlt | heq | hgt
  · refine iff_of_true ?_ (hbelow hlt)
    unfold exponentFor
    simp only
    split <;> omega
  · -- The leading digits are as far apart as the exponent says, and the comparison of the parts decides.
    have hup : ((n.log2 : Int) - d.log2).toNat = j := by omega
    have hdown : (-((n.log2 : Int) - d.log2)).toNat = 0 := by omega
    unfold exponentFor
    simp only [hup, hdown, hone, Nat.mul_one]
    split
    · rename_i hle
      exact iff_of_true (by omega) hle
    · rename_i hnot
      exact iff_of_false (by omega) hnot
  · refine iff_of_false ?_ (Nat.not_le.2 (habove hgt))
    unfold exponentFor
    simp only
    split <;> omega

/-- A binary number that is counted in parts has its mantissa as numerator. -/
theorem num_eq_mantissa {x : Dyadic} {k : Nat} (h : x.exponent = -k) : x.num = x.mantissa := by
  have hup : (-(k : Int)).toNat = 0 := by omega
  rw [num, h, hup]
  exact Int.mul_one _

/-- A binary number that is counted in parts has the number of parts as denominator. -/
theorem den_eq_pow2 {x : Dyadic} {k : Nat} (h : x.exponent = -k) : x.den = pow2 k := by
  rw [den, h, Int.neg_neg, Int.toNat_natCast]

/-- The exponent of a quotient that is not zero. -/
theorem nearest_exponent {n : Int} (hn : n ≠ 0) (d : Nat) : (nearest n d).exponent = exponentFor n.natAbs d := by
  rw [nearest, if_neg hn]

/-- A quotient whose 53 binary digits do not begin below one is rounded to 53 binary digits at least. -/
theorem pow2_le_mantissa {n : Int} {d : Nat} (hn : n ≠ 0) (hd : d ≠ 0) (h : -52 ≤ exponentFor n.natAbs d) :
    pow2 52 ≤ (nearest n d).mantissa.natAbs := by
  obtain ⟨j, hj⟩ := Int.eq_ofNat_of_zero_le (show 0 ≤ exponentFor n.natAbs d + 52 by omega)
  have hle : d * pow2 j ≤ n.natAbs := (le_exponentFor_iff (Int.natAbs_ne_zero.2 hn) hd j).1 hj.ge
  rw [nearest, if_neg hn]
  simp only [Int.natAbs_mul, Int.natAbs_sign_of_ne_zero hn, Nat.one_mul]
  generalize exponentFor n.natAbs d = e at hj
  refine le_natAbs_roundHalfEven (Nat.mul_pos (Nat.pos_of_ne_zero hd) (pow2_pos _)) ?_
  have hsum : 52 + e.toNat = j + (-e).toNat := by omega
  calc pow2 52 * (d * pow2 e.toNat) = d * pow2 (52 + e.toNat) := by rw [pow2_add, Nat.mul_left_comm]
    _ = d * pow2 j * pow2 (-e).toNat := by rw [hsum, pow2_add, Nat.mul_assoc]
    _ ≤ n.natAbs * pow2 (-e).toNat := Nat.mul_le_mul_right _ hle

/-- A quotient that is at least a power of two in size is not rounded to less than that. -/
theorem pow2_mul_den_le {n : Int} {d j : Nat} (hd : d ≠ 0) (h : d * pow2 j ≤ n.natAbs) :
    pow2 j * (nearest n d).den ≤ (nearest n d).num.natAbs := by
  have hn : n ≠ 0 := by
    rintro rfl
    exact Nat.not_lt.2 h (Nat.mul_pos (Nat.pos_of_ne_zero hd) (pow2_pos j))
  have hj : (j : Int) ≤ exponentFor n.natAbs d + 52 := (le_exponentFor_iff (Int.natAbs_ne_zero.2 hn) hd j).2 h
  have hmantissa : pow2 52 ≤ (nearest n d).mantissa.natAbs := pow2_le_mantissa hn hd (by omega)
  rw [num, den, nearest_exponent hn, Int.natAbs_mul, Int.natAbs_natCast]
  generalize exponentFor n.natAbs d = e at hj
  calc pow2 j * pow2 (-e).toNat = pow2 (j + (-e).toNat) := (pow2_add _ _).symm
    _ ≤ pow2 (52 + e.toNat) := pow2_le (by omega)
    _ = pow2 52 * pow2 e.toNat := pow2_add _ _
    _ ≤ (nearest n d).mantissa.natAbs * pow2 e.toNat := Nat.mul_le_mul_right _ hmantissa

/-- The 53 binary digits of a quotient are at most half a unit off. -/
theorem nearest_within {n : Int} {d k : Nat} (hn : n ≠ 0) (hd : d ≠ 0) (hk : exponentFor n.natAbs d = -k) :
    2 * (n * pow2 k - (nearest n d).mantissa * d) ≤ d ∧ -(d : Int) ≤ 2 * (n * pow2 k - (nearest n d).mantissa * d) := by
  have hdown : (-(-(k : Int))).toNat = k := by omega
  have hup : (-(k : Int)).toNat = 0 := by omega
  have hone : pow2 0 = 1 := rfl
  obtain ⟨hle, hge⟩ := roundHalfEven_within (n.natAbs * pow2 k : Nat) (Nat.pos_of_ne_zero hd)
  rw [nearest, if_neg hn]
  simp only [units, hk, hdown, hup, hone, Nat.mul_one]
  generalize hr : roundHalfEven (n.natAbs * pow2 k : Nat) d = r at *
  push_cast at hle hge
  rcases Int.lt_or_gt_of_ne hn with hneg | hpos
  · rw [Int.sign_eq_neg_one_of_neg hneg]
    have habs : |n| = -n := abs_of_neg hneg
    rw [habs] at hle hge
    constructor <;> linarith
  · rw [Int.sign_eq_one_of_pos hpos]
    have habs : |n| = n := abs_of_pos hpos
    rw [habs] at hle hge
    constructor <;> linarith

end Dyadic
end VesselTraffic
