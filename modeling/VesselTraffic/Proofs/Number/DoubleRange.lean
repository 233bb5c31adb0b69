import VesselTraffic.Proofs.Number.DoubleParts

/-!
# The range of the doubles

The integer that a double is rounded to is at most the greatest double in size, and every integer of that size has a nearest double. So
what was made an integer of a double can be made a double again (`exists_ofInt_of_round`), although an integer may lie beyond the
doubles.
-/

namespace VesselTraffic

/-- The multiple of a greater integer is greater by a whole unit. -/
theorem mul_add_le_of_lt {j k : Int} (h : j < k) (d : Nat) : j * d + d ≤ k * d := by
  have hmul : (j + 1) * d ≤ k * d := Int.mul_le_mul_of_nonneg_right h (Int.natCast_nonneg d)
  rwa [Int.add_mul, Int.one_mul] at hmul

/-- A quotient that is at most an integer is rounded to at most that integer. -/
theorem roundHalfEven_le {n k : Int} {d : Nat} (hd : 0 < d) (h : n ≤ k * d) : roundHalfEven n d ≤ k := by
  have hwithin := (roundHalfEven_within n hd).2
  refine Int.not_lt.1 fun hlt => ?_
  have hmul := mul_add_le_of_lt hlt d
  omega

/-- A quotient that is at least an integer is rounded to at least that integer. -/
theorem le_roundHalfEven {n k : Int} {d : Nat} (hd : 0 < d) (h : k * d ≤ n) : k ≤ roundHalfEven n d := by
  have hwithin := (roundHalfEven_within n hd).1
  refine Int.not_lt.1 fun hlt => ?_
  have hmul := mul_add_le_of_lt hlt d
  omega

/-- Powers of two grow. -/
theorem pow2_le {j k : Nat} (h : j ≤ k) : pow2 j ≤ pow2 k := Nat.pow_le_pow_right (by decide) h

/-- A logarithm is that of the first power of two beyond, less one, at most. -/
theorem log2_le_of_lt {m k : Nat} (h : m < 2 ^ (k + 1)) : m.log2 ≤ k := by
  by_cases hm : m = 0
  · rw [hm]
    exact Nat.zero_le k
  · exact Nat.le_of_lt_succ ((Nat.log2_lt hm).2 h)

/-- The greatest double. -/
def greatestDouble : Nat := (pow2 53 - 1) * pow2 971

namespace DoubleParts

/-- The exponent of a finite double has an upper bound, too. -/
theorem exponent_le_of_ofDouble {x : Float} {negative : Bool} {m : Nat} {e : Int} (h : ofDouble x = .finite negative m e) :
    e ≤ 971 := by
  simp only [ofDouble] at h
  split at h
  · split at h <;> cases h
  · split at h
    · cases h
      decide
    · cases h
      omega

end DoubleParts

namespace Dyadic

/-- A quotient by one is written with the exponent that leaves 53 binary digits. -/
theorem exponentFor_one {n : Nat} (h : n ≠ 0) : exponentFor n 1 = (n.log2 : Int) - 52 := by
  have hone : ((1 : Nat).log2 : Int) = 0 := rfl
  have hlow : 1 * pow2 (n.log2 : Int).toNat ≤ n * pow2 (-(n.log2 : Int)).toNat := by
    have hzero : (-(n.log2 : Int)).toNat = 0 := by omega
    rw [hzero, Int.toNat_natCast, Nat.one_mul]
    exact (Nat.log2_self_le h).trans (Nat.le_mul_of_pos_right n (pow2_pos 0))
  unfold exponentFor
  simp only [hone, Int.sub_zero]
  rw [if_pos hlow]

/-- A natural number that is at most some units of the size for its rounding is rounded to at most that many. -/
theorem units_le {n k : Nat} {e : Int} (h : n * pow2 (-e).toNat ≤ k * pow2 e.toNat) : (units n 1 e).natAbs ≤ k := by
  have hden : 0 < 1 * pow2 e.toNat := by
    rw [Nat.one_mul]
    exact pow2_pos _
  have hle : units n 1 e ≤ k := roundHalfEven_le hden (by rw [Nat.one_mul]; exact_mod_cast h)
  have hge : 0 ≤ units n 1 e := le_roundHalfEven hden (by rw [Int.zero_mul]; exact Int.natCast_nonneg _)
  omega

/-- Rounding to 53 binary digits makes one digit more at most. -/
theorem units_le_pow2 (n : Nat) : (units n 1 (n.log2 - 52)).natAbs ≤ pow2 53 := by
  have hupper : n < pow2 (n.log2 + 1) := Nat.lt_log2_self
  refine units_le ((Nat.mul_le_mul_right _ hupper.le).trans ?_)
  rw [← pow2_add, ← pow2_add]
  exact pow2_le (by omega)

/-- A natural number that is at most the greatest double keeps within the range of the doubles when it is rounded. -/
theorem log2_units_le {n : Nat} (hn : n ≠ 0) (h : n ≤ greatestDouble) :
    ((units n 1 (n.log2 - 52)).natAbs.log2 : Int) + (n.log2 - 52) ≤ 1023 := by
  have hlog : n.log2 < 1024 := (Nat.log2_lt hn).2 (Nat.lt_of_le_of_lt h (by decide +kernel))
  by_cases htop : n.log2 = 1023
  · -- In the last binade the number is at most the greatest double, so rounding does not carry.
    have hunits : (units n 1 (n.log2 - 52)).natAbs ≤ pow2 53 - 1 := by
      have hdown : (-(((1023 : Nat) : Int) - 52)).toNat = 0 := rfl
      have hup : (((1023 : Nat) : Int) - 52).toNat = 971 := rfl
      have hone : pow2 0 = 1 := rfl
      refine units_le ?_
      rw [htop, hdown, hup, hone, Nat.mul_one]
      exact h
    have := log2_le_of_lt (k := 52) (Nat.lt_of_le_of_lt hunits (by decide +kernel))
    omega
  · have := log2_le_of_lt (k := 53) (Nat.lt_of_le_of_lt (units_le_pow2 n) (by decide +kernel))
    omega

end Dyadic

namespace Double

/-- Parts whose first digit is not beyond that of the greatest double make a double. -/
theorem exists_ofParts (negative : Bool) {m : Nat} {e : Int} (h : (m.log2 : Int) + e ≤ 1023) :
    ∃ x, ofParts? negative m e = some x := by
  unfold ofParts?
  simp only
  split
  · exact ⟨_, rfl⟩
  · rw [if_neg (Int.not_lt.2 h)]
    split <;> exact ⟨_, rfl⟩

/-- An integer that is at most the greatest double in size has a nearest double. -/
theorem exists_ofInt {n : Int} (h : n.natAbs ≤ greatestDouble) : ∃ x, ofInt n = .ok x := by
  have hsome : ∃ x, ofRatio? n 1 = some x := by
    unfold ofRatio?
    refine exists_ofParts _ ?_
    by_cases hn : n = 0
    · rw [hn]
      decide
    · have habs : n.natAbs ≠ 0 := Int.natAbs_ne_zero.2 hn
      rw [Dyadic.nearest, if_neg hn, Dyadic.exponentFor_one habs]
      simp only
      rw [Int.natAbs_mul, Int.natAbs_sign_of_ne_zero hn, Nat.one_mul]
      exact Dyadic.log2_units_le habs h
  obtain ⟨x, hx⟩ := hsome
  exact ⟨x, by rw [ofInt, hx]⟩

/-- A binary number is rounded to an integer that is at most as large as its numerator. -/
theorem natAbs_round_le (d : Dyadic) : d.round.natAbs ≤ d.mantissa.natAbs * pow2 d.exponent.toNat := by
  have hden : 0 < d.den := pow2_pos _
  have hsize : d.num.natAbs = d.mantissa.natAbs * pow2 d.exponent.toNat := by
    rw [Dyadic.num, Int.natAbs_mul, Int.natAbs_natCast]
  have hmul : (d.num.natAbs : Int) ≤ d.num.natAbs * d.den := by
    exact_mod_cast Nat.le_mul_of_pos_right d.num.natAbs hden
  have hle : d.round ≤ d.num.natAbs := roundHalfEven_le hden (by omega)
  have hge : -(d.num.natAbs : Int) ≤ d.round := le_roundHalfEven hden (by rw [Int.neg_mul]; omega)
  omega

/-- The integer nearest to a double is at most the greatest double in size. -/
theorem natAbs_le_of_round {y : Float} {n : Int} (h : round y = .ok n) : n.natAbs ≤ greatestDouble := by
  unfold round toDyadic at h
  cases hy : DoubleParts.ofDouble y with
  | nan =>
    rw [hy] at h
    cases h
  | infinite negative =>
    rw [hy] at h
    cases h
  | finite negative m e =>
    rw [hy] at h
    have hm := (DoubleParts.normal_ofDouble hy).mantissa_lt
    have he := DoubleParts.exponent_le_of_ofDouble hy
    have hmantissa : (if negative = true then -(m : Int) else m).natAbs = m := by split <;> omega
    have hpow : pow2 53 = 2 ^ 53 := rfl
    rw [← Except.ok.inj h]
    refine (natAbs_round_le _).trans ?_
    rw [hmantissa]
    exact Nat.mul_le_mul (by omega) (pow2_le (Int.toNat_le.2 he))

/-- What was made an integer of a double can be made a double again. -/
theorem exists_ofInt_of_round {y : Float} {n : Int} (h : round y = .ok n) : ∃ x, ofInt n = .ok x :=
  exists_ofInt (natAbs_le_of_round h)

end Double
end VesselTraffic
