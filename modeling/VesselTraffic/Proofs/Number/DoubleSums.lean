import VesselTraffic.Proofs.Number.DoubleArithmetic
import VesselTraffic.Proofs.Number.DoubleValues

/-!
# Sums of doubles

A number of at most 53 binary digits is kept by rounding (`DoubleParts.round_scaled`), so doubles that stand for small integers are added,
subtracted and halved exactly (`Double.value?_add`, `Double.value?_sub`, `Double.value?_half`). The sign of a zero shows in a sum or a
half only as the sign of a zero (`Double.Alike.add`, `Double.Alike.half`), and in the difference of two doubles that are not both zeros
not at all (`Double.Alike.sub_eq`).
-/

namespace VesselTraffic

open Float.Model Float.Model.UnpackedFloat

namespace DoubleParts

/-! ## Exact rounding -/

/-- Zeros that are shifted out of a mantissa leave nothing behind it. -/
theorem shiftRight_scaled (m i : ℕ) :
    ExtendedMantissa.ofMantissaAndAccuracy (m * 2 ^ i) .exact >>> i = ExtendedMantissa.ofMantissaAndAccuracy m .exact := by
  induction i generalizing m with
  | zero =>
    rw [Nat.pow_zero, Nat.mul_one]
    rfl
  | succ i ih =>
    have hstep : ∀ em : ExtendedMantissa, em >>> (i + 1) = (em >>> i).shiftRightOne := fun _ => rfl
    rw [hstep, Nat.pow_succ', ← Nat.mul_assoc, ih]
    simp [ExtendedMantissa.shiftRightOne, ExtendedMantissa.ofMantissaAndAccuracy]

/-- A number that is multiplied by a power of two has as many more binary digits. -/
theorem log2_mul_pow {m : ℕ} (hm : m ≠ 0) (i : ℕ) : (m * 2 ^ i).log2 = m.log2 + i := by
  refine (Nat.log2_eq_iff (Nat.mul_ne_zero hm (Nat.two_pow_pos i).ne')).2 ⟨?_, ?_⟩
  · rw [Nat.pow_add]
    exact Nat.mul_le_mul_right _ (Nat.log2_self_le hm)
  · rw [Nat.add_right_comm, Nat.pow_add]
    exact Nat.mul_lt_mul_of_pos_right Nat.lt_log2_self (Nat.two_pow_pos i)

/-- Shifting to the target takes the zeros behind a mantissa of 53 binary digits away and nothing else. -/
theorem shiftToTargetExponent_scaled {m : ℕ} (i : ℕ) {e : ℤ} (hlog : m.log2 = 52) (hm : m ≠ 0) (he : -1074 ≤ e) :
    shiftToTargetExponent Format.binary64 (m * 2 ^ i) (e - i) .exact = (ExtendedMantissa.ofMantissaAndAccuracy m .exact, e) := by
  have htarget := targetExponent_eq (m * 2 ^ i) (e - i)
  rw [log2_mul_pow hm, hlog] at htarget
  have hshift : (Format.binary64.targetExponent (totalExponent (m * 2 ^ i) (e - i)) - (e - i)).toNat = i := by omega
  have hexponent : e - i + (i : ℤ) = e := by omega
  unfold shiftToTargetExponent shiftToExponent
  simp only [hshift, shiftRight_scaled, hexponent]

/-- A mantissa of 53 binary digits is kept by rounding, whatever zeros stand behind it. -/
theorem roundWithAccuracy_scaled (s : Sign) {m : ℕ} (i : ℕ) {e : ℤ} (hlow : 2 ^ 52 ≤ m) (hhigh : m < 2 ^ 53) (he : -1074 ≤ e) :
    roundWithAccuracy Format.binary64 s (m * 2 ^ i) (e - i) .exact = .finite s m e (by omega) := by
  have hlog : m.log2 = 52 := (Nat.log2_eq_iff (by omega)).2 ⟨hlow, hhigh⟩
  have hfirst := shiftToTargetExponent_scaled i hlog (by omega) he
  have hsecond := shiftToTargetExponent_scaled 0 hlog (by omega) he
  rw [Nat.pow_zero, Nat.mul_one, Nat.cast_zero, sub_zero] at hsecond
  have hrounded : (ExtendedMantissa.ofMantissaAndAccuracy m .exact).roundedMantissa = m := rfl
  unfold roundWithAccuracy
  simp only [hfirst, hrounded, hsecond, mantissa_ofMantissaAndAccuracy]
  rw [dif_neg (by omega)]

/-- A natural number of at most 53 binary digits is kept by rounding, wherever its point is. -/
theorem round_scaled (s : Sign) {n : ℕ} (hn : n ≠ 0) (hlt : n < 2 ^ 53) (j : ℕ) :
    UnpackedFloat.round Format.binary64 s (n * 2 ^ j) (-j) =
      .finite s (n * 2 ^ (52 - n.log2)) ((n.log2 : ℤ) - 52) (Nat.mul_pos (Nat.pos_of_ne_zero hn) (Nat.two_pow_pos _)) := by
  obtain ⟨hlog, hlow, hhigh⟩ := scaled_bounds hn hlt
  have htarget := targetExponent_eq (n * 2 ^ j) (-j)
  rw [log2_mul_pow hn] at htarget
  unfold UnpackedFloat.round decreaseExponent
  simp only [htarget]
  -- The zeros behind the number and those that are put behind it make up its 53 digits and what is shifted out again.
  generalize ha : ((-(j : ℤ)) - max (((n.log2 + j : ℕ) : ℤ) + -(j : ℤ) - 52) (-1074)).toNat = a
  obtain ⟨i, hi⟩ : ∃ i : ℕ, j + a = (52 - n.log2) + i := ⟨j + a - (52 - n.log2), by omega⟩
  have hmantissa : (n * 2 ^ j) <<< a = n * 2 ^ (52 - n.log2) * 2 ^ i := by
    rw [Nat.shiftLeft_eq, Nat.mul_assoc, ← Nat.pow_add, hi, Nat.pow_add, Nat.mul_assoc]
  have hexponent : -(j : ℤ) - a = ((n.log2 : ℤ) - 52) - i := by omega
  rw [hmantissa, hexponent]
  exact roundWithAccuracy_scaled s i hlow hhigh (by omega)

/-- A number in normal form that is not zero and less than `2 ^ 53` has an exponent of at most zero, and its mantissa is full if it is an
integer. -/
theorem Normal.of_small {s : Sign} {m : ℕ} {e : ℤ} (hnormal : Normal m e) (hm : 0 < m) {n : ℤ} (h : signed s m e = n)
    (hn : n.natAbs < 2 ^ 53) : e ≤ 0 ∧ -52 ≤ e ∧ 2 ^ 52 ≤ m := by
  have habs : (m : ℚ) * 2 ^ e = n.natAbs := by
    have hpos : (0 : ℚ) < m * 2 ^ e := by positivity
    rw [Nat.cast_natAbs, Int.cast_abs, ← h]
    cases s
    · rw [signed, abs_neg, abs_of_pos hpos]
    · rw [signed, abs_of_pos hpos]
  have hm' := hnormal.mantissa_lt
  have hone : (1 : ℚ) ≤ n.natAbs := by
    have hne : n.natAbs ≠ 0 := by
      intro hzero
      rw [hzero, Nat.cast_zero] at habs
      have hpos : (0 : ℚ) < m * 2 ^ e := by positivity
      exact absurd habs hpos.ne'
    exact_mod_cast Nat.one_le_iff_ne_zero.2 hne
  have hlow : -52 ≤ e := by
    by_contra hlt
    have hpow : (2 : ℚ) ^ e ≤ 2 ^ (-53 : ℤ) := zpow_le_zpow_right₀ one_le_two (by omega)
    have hmq : (m : ℚ) < 2 ^ 53 := by exact_mod_cast hm'
    have hlt' : (m : ℚ) * 2 ^ e < 1 := by
      calc (m : ℚ) * 2 ^ e ≤ m * 2 ^ (-53 : ℤ) := mul_le_mul_of_nonneg_left hpow (Nat.cast_nonneg m)
        _ < 2 ^ 53 * 2 ^ (-53 : ℤ) := mul_lt_mul_of_pos_right hmq (by positivity)
        _ = 1 := by norm_num
    rw [habs] at hlt'
    exact absurd hone (not_le.2 hlt')
  have hfull : 2 ^ 52 ≤ m := by
    by_contra hlt
    have hleast := hnormal.subnormal (by omega)
    omega
  refine ⟨?_, hlow, hfull⟩
  by_contra hpos
  have hpow : (2 : ℚ) ^ (1 : ℤ) ≤ 2 ^ e := zpow_le_zpow_right₀ one_le_two (by omega)
  have hmq : (2 : ℚ) ^ 52 ≤ m := by exact_mod_cast hfull
  have hge : (2 : ℚ) ^ 52 * 2 ^ (1 : ℤ) ≤ m * 2 ^ e := mul_le_mul hmq hpow (by positivity) (Nat.cast_nonneg m)
  have hlt : ((n.natAbs : ℕ) : ℚ) < 2 ^ 52 * 2 ^ (1 : ℤ) := by
    have hcast : ((n.natAbs : ℕ) : ℚ) < 2 ^ 53 := by exact_mod_cast hn
    exact hcast.trans_eq (by norm_num)
  rw [habs] at hge
  exact absurd hge (not_le.2 hlt)

/-! ## Integers -/

/-- An integer of at most 53 binary digits is kept when it is put in normal form, wherever its point is. -/
theorem spells_normalize {n : ℤ} (h : n.natAbs < 2 ^ 53) (j : ℕ) (z : Sign) :
    Spells (UnpackedFloat.normalize Format.binary64 (n * 2 ^ j) (-j) z) n := by
  have hpow : (0 : ℤ) < 2 ^ j := by positivity
  have hfinite : ∀ s (k : ℕ) (hk : k ≠ 0), k < 2 ^ 53 → signed s (k * 2 ^ (52 - k.log2)) ((k.log2 : ℤ) - 52) = n →
      Spells (UnpackedFloat.round Format.binary64 s (k * 2 ^ j) (-j)) n := by
    intro s k hk hlt hs
    obtain ⟨hlog, hlow, hhigh⟩ := scaled_bounds hk hlt
    rw [round_scaled s hk hlt]
    exact Or.inr ⟨_, _, _, _, rfl, ⟨hhigh, by omega, fun hsub => absurd hlow (by omega)⟩, hs⟩
  have hvalue : ∀ {k : ℕ}, k.log2 ≤ 52 → ((k * 2 ^ (52 - k.log2) : ℕ) : ℚ) * 2 ^ ((k.log2 : ℤ) - 52) = k := by
    intro k hlog
    have hscaled := scaled_value hlog 0
    rwa [Nat.cast_zero, sub_zero, pow_zero, div_one] at hscaled
  unfold UnpackedFloat.normalize
  rcases lt_trichotomy n 0 with hn | hn | hn
  · have hcompare : compare (n * 2 ^ j) 0 = .lt := compare_lt_iff_lt.2 (mul_neg_of_neg_of_pos hn hpow)
    have hnat : (-(n * 2 ^ j)).toNat = n.natAbs * 2 ^ j := by
      have hcast : -(n * 2 ^ j) = ((n.natAbs * 2 ^ j : ℕ) : ℤ) := by
        push_cast
        rw [abs_of_neg hn, neg_mul]
      rw [hcast, Int.toNat_natCast]
    have habs : n.natAbs ≠ 0 := by omega
    rw [hcompare, hnat]
    refine hfinite .negative n.natAbs habs h ?_
    rw [signed, hvalue (scaled_bounds habs h).1, Nat.cast_natAbs, abs_of_neg hn, Int.cast_neg, neg_neg]
  · subst hn
    rw [zero_mul, compare_eq_iff_eq.2 rfl, Int.cast_zero]
    exact Spells.zero z
  · have hcompare : compare (n * 2 ^ j) 0 = .gt := compare_gt_iff_gt.2 (mul_pos hn hpow)
    have hnat : (n * 2 ^ j).toNat = n.natAbs * 2 ^ j := by
      have hcast : n * 2 ^ j = ((n.natAbs * 2 ^ j : ℕ) : ℤ) := by
        push_cast
        rw [abs_of_pos hn]
      rw [hcast, Int.toNat_natCast]
    have habs : n.natAbs ≠ 0 := by omega
    rw [hcompare, hnat]
    refine hfinite .positive n.natAbs habs h ?_
    rw [signed, hvalue (scaled_bounds habs h).1, Nat.cast_natAbs, abs_of_pos hn]

/-- The mantissa of an integer with a smaller exponent. -/
theorem apply_decreaseExponent {s : Sign} {m : ℕ} {e n : ℤ} (h : signed s m e = n) {j : ℕ} (hj : -(j : ℤ) ≤ e) :
    s.apply ((decreaseExponent m e (-j)).1 : ℤ) = n * 2 ^ j := by
  have hshift : (decreaseExponent m e (-j)).1 = m * 2 ^ (e - -(j : ℤ)).toNat := Nat.shiftLeft_eq _ _
  have hvalue : ((m * 2 ^ (e - -(j : ℤ)).toNat : ℕ) : ℚ) = m * 2 ^ e * 2 ^ j := by
    have hexponent : ((e - -(j : ℤ)).toNat : ℤ) = e + j := by omega
    push_cast
    rw [← zpow_natCast, hexponent, zpow_add₀ two_ne_zero, zpow_natCast, mul_assoc]
  have hq : ((s.apply ((decreaseExponent m e (-j)).1 : ℤ) : ℤ) : ℚ) = n * 2 ^ j := by
    rw [hshift, ← h]
    cases s
    · rw [Sign.apply, Int.cast_neg, Int.cast_natCast, hvalue, signed, neg_mul]
    · rw [Sign.apply, Int.cast_natCast, hvalue, signed]
  exact_mod_cast hq

namespace Spells

variable {u v : UnpackedFloat} {m n : ℤ}

/-- Integers of at most 53 binary digits are added exactly, if their sum has no more digits either. -/
theorem add (hu : Spells u m) (hv : Spells v n) (hm : m.natAbs < 2 ^ 53) (hn : n.natAbs < 2 ^ 53)
    (hsum : (m + n).natAbs < 2 ^ 53) : Spells (UnpackedFloat.add Format.binary64 u v) ((m + n : ℤ) : ℚ) := by
  rcases hu with ⟨⟨s, rfl⟩, hzero⟩ | ⟨s, k, e, hk, rfl, hnormal, hs⟩
  · obtain rfl : m = 0 := by exact_mod_cast hzero
    rw [zero_add]
    rcases hv with ⟨⟨t, rfl⟩, hzero'⟩ | ⟨t, i, f, hi, rfl, hnormal', ht⟩
    · rw [hzero']
      cases s <;> cases t <;> exact Spells.zero _
    · exact Or.inr ⟨t, i, f, hi, rfl, hnormal', ht⟩
  · rcases hv with ⟨⟨t, rfl⟩, hzero'⟩ | ⟨t, i, f, hi, rfl, hnormal', ht⟩
    · obtain rfl : n = 0 := by exact_mod_cast hzero'
      rw [add_zero]
      exact Or.inr ⟨s, k, e, hk, rfl, hnormal, hs⟩
    · obtain ⟨he, -⟩ := hnormal.of_small hk hs hm
      obtain ⟨hf, -⟩ := hnormal'.of_small hi ht hn
      obtain ⟨j, hj⟩ : ∃ j : ℕ, min e f = -(j : ℤ) := ⟨(-min e f).toNat, by omega⟩
      have hadd : UnpackedFloat.add Format.binary64 (.finite s k e hk) (.finite t i f hi) =
          UnpackedFloat.normalize Format.binary64
            (s.apply ((decreaseExponent k e (min e f)).1 : ℤ) + t.apply ((decreaseExponent i f (min e f)).1 : ℤ)) (min e f)
            .positive := rfl
      rw [hadd, hj, apply_decreaseExponent hs (by omega), apply_decreaseExponent ht (by omega), ← add_mul]
      exact spells_normalize hsum j .positive

/-- What is negated spells the negated number. -/
theorem neg (hu : Spells u n) : Spells u.neg ((-n : ℤ) : ℚ) := by
  rw [Int.cast_neg]
  rcases hu with ⟨⟨s, rfl⟩, hzero⟩ | ⟨s, k, e, hk, rfl, hnormal, hs⟩
  · rw [hzero, neg_zero]
    exact Spells.zero (-s)
  · refine Or.inr ⟨-s, k, e, hk, rfl, hnormal, ?_⟩
    rw [← hs]
    cases s
    · exact (neg_neg _).symm
    · rfl

end Spells

/-- A difference is the sum with what is negated. -/
theorem sub_eq_add_neg (u v : UnpackedFloat) : UnpackedFloat.sub Format.binary64 u v = UnpackedFloat.add Format.binary64 u v.neg := by
  have happly : ∀ (s : Sign) (k : ℤ), (-s).apply k = -s.apply k := by
    intro s k
    cases s
    · exact (neg_neg k).symm
    · rfl
  cases u <;> cases v <;> try rfl
  simp only [UnpackedFloat.sub, UnpackedFloat.add, UnpackedFloat.neg, happly, Int.sub_eq_add_neg]

/-- The number two is a whole number of units of its last binary place. -/
theorem unpack_two : (2 : Float).toModel.unpack = .finite .positive (2 ^ 52) (-51) (by decide) := rfl

/-- An integer of at most 53 binary digits is halved exactly. -/
theorem Spells.half {u : UnpackedFloat} {n : ℤ} (hu : Spells u n) (hn : n.natAbs < 2 ^ 53) :
    Spells (UnpackedFloat.div Format.binary64 u (2 : Float).toModel.unpack) ((n : ℚ) / 2) := by
  rw [unpack_two]
  rcases hu with ⟨⟨s, rfl⟩, hzero⟩ | ⟨s, k, e, hk, rfl, hnormal, hs⟩
  · rw [hzero, zero_div]
    exact Spells.zero _
  · obtain ⟨he, he', hfull⟩ := hnormal.of_small hk hs hn
    have hlog : k.log2 = 52 := (Nat.log2_eq_iff (by omega)).2 ⟨hfull, hnormal.mantissa_lt⟩
    have hdivisor : (2 ^ 52 : ℕ).log2 = 52 := Nat.log2_two_pow
    have htarget : Format.binary64.targetExponent (totalExponent k e - totalExponent (2 ^ 52) (-51)) = e - 2 := by
      have hbits : ((Format.binary64.mantissaBits : ℕ) : ℤ) = 53 := rfl
      have hmin : Format.binary64.minExponent = -1074 := rfl
      rw [Format.targetExponent, totalExponent, totalExponent, hbits, hmin, hlog, hdivisor]
      omega
    have hdividend : k <<< (e - -51 - (e - 2)).toNat = k * 2 ^ 1 * 2 ^ 52 := by
      have hshift : (e - -51 - (e - 2)).toNat = 1 + 52 := by omega
      rw [hshift, Nat.shiftLeft_eq, Nat.pow_add, Nat.mul_assoc]
    have hcore : divCore Format.binary64 k e (2 ^ 52) (-51) = (k * 2 ^ 1, e - 1 - (1 : ℕ), .exact) := by
      have hmin : min (e - -51) (e - 2) = e - 1 - (1 : ℕ) := by omega
      have hexponent : e - 1 - (1 : ℕ) = e - 2 := by omega
      rw [divCore.eq_1, htarget, hmin, hexponent, hdividend, Nat.mul_div_cancel _ (Nat.two_pow_pos 52), Nat.mul_mod_left]
      rfl
    have hdiv : UnpackedFloat.div Format.binary64 (.finite s k e hk) (.finite .positive (2 ^ 52) (-51) (by decide)) =
        roundWithAccuracy Format.binary64 (s / .positive) (divCore Format.binary64 k e (2 ^ 52) (-51)).1
          (divCore Format.binary64 k e (2 ^ 52) (-51)).2.1 (divCore Format.binary64 k e (2 ^ 52) (-51)).2.2 := rfl
    have hsign : s / .positive = s := by cases s <;> rfl
    rw [hdiv, hcore, hsign, roundWithAccuracy_scaled s 1 hfull hnormal.mantissa_lt (by omega)]
    refine Or.inr ⟨s, k, e - 1, hk, rfl, ⟨hnormal.mantissa_lt, by omega, fun hsub => absurd hfull (by omega)⟩, ?_⟩
    have hhalf : (k : ℚ) * 2 ^ (e - 1) = k * 2 ^ e / 2 := by
      rw [zpow_sub_one₀ two_ne_zero, ← mul_assoc, div_eq_mul_inv]
    rw [← hs]
    cases s
    · rw [signed, hhalf, signed, neg_div]
    · rw [signed, hhalf, signed]

/-! ## Up to the sign of a zero -/

/-- Two doubles, taken apart, that are the same or both zeros. -/
def SameButZero (u v : UnpackedFloat) : Prop := u = v ∨ (∃ s, u = .zero s) ∧ ∃ s, v = .zero s

namespace SameButZero

variable {u u' v v' : UnpackedFloat}

/-- The sign of a zero shows in a sum only as the sign of a zero. -/
theorem add (hu : SameButZero u u') (hv : SameButZero v v') :
    SameButZero (UnpackedFloat.add Format.binary64 u v) (UnpackedFloat.add Format.binary64 u' v') := by
  have hzeros : ∀ s t, ∃ r, UnpackedFloat.add Format.binary64 (.zero s) (.zero t) = .zero r := by
    intro s t
    cases s <;> cases t <;> exact ⟨_, rfl⟩
  rcases hu with rfl | ⟨⟨s, rfl⟩, s', rfl⟩
  · rcases hv with rfl | ⟨⟨t, rfl⟩, t', rfl⟩
    · exact Or.inl rfl
    · cases u with
      | zero s => exact Or.inr ⟨hzeros s t, hzeros s t'⟩
      | notANumber | infinity _ | finite _ _ _ _ => exact Or.inl rfl
  · rcases hv with rfl | ⟨⟨t, rfl⟩, t', rfl⟩
    · cases v with
      | zero t => exact Or.inr ⟨hzeros s t, hzeros s' t⟩
      | notANumber | infinity _ | finite _ _ _ _ => exact Or.inl rfl
    · exact Or.inr ⟨hzeros s t, hzeros s' t'⟩

/-- The sign of a zero shows in a half only as the sign of a zero. -/
theorem half (h : SameButZero u v) : SameButZero (UnpackedFloat.div Format.binary64 u (2 : Float).toModel.unpack)
    (UnpackedFloat.div Format.binary64 v (2 : Float).toModel.unpack) := by
  rcases h with rfl | ⟨⟨s, rfl⟩, t, rfl⟩
  · exact Or.inl rfl
  · exact Or.inr ⟨⟨_, rfl⟩, _, rfl⟩

end SameButZero

end DoubleParts

namespace Double

open DoubleParts

variable {x x' y y' : Float} {m n : ℤ}

/-- Integers of at most 53 binary digits are added exactly, if their sum has no more digits either. -/
theorem value?_add (hx : (ofDouble x).value? = some (m : ℚ)) (hy : (ofDouble y).value? = some (n : ℚ)) (hm : m.natAbs < 2 ^ 53)
    (hn : n.natAbs < 2 ^ 53) (hsum : (m + n).natAbs < 2 ^ 53) : (ofDouble (x + y)).value? = some ((m + n : ℤ) : ℚ) := by
  have hspells := (value?_eq_some_iff.1 hx).add (value?_eq_some_iff.1 hy) hm hn hsum
  obtain ⟨z, -, hz⟩ := exists_ofRatio? hsum (Nat.zero_le 1)
  rw [pow_zero, div_one] at hz
  exact value?_eq_some_iff.2 (hspells.pack hz)

/-- Integers of at most 53 binary digits are subtracted exactly, if their difference has no more digits either. -/
theorem value?_sub (hx : (ofDouble x).value? = some (m : ℚ)) (hy : (ofDouble y).value? = some (n : ℚ)) (hm : m.natAbs < 2 ^ 53)
    (hn : n.natAbs < 2 ^ 53) (hdiff : (m - n).natAbs < 2 ^ 53) : (ofDouble (x - y)).value? = some ((m - n : ℤ) : ℚ) := by
  have hspells := (value?_eq_some_iff.1 hx).add (value?_eq_some_iff.1 hy).neg hm (by omega) (by omega)
  rw [← DoubleParts.sub_eq_add_neg, ← Int.sub_eq_add_neg] at hspells
  obtain ⟨z, -, hz⟩ := exists_ofRatio? hdiff (Nat.zero_le 1)
  rw [pow_zero, div_one] at hz
  exact value?_eq_some_iff.2 (hspells.pack hz)

/-- An integer of at most 53 binary digits is halved exactly. -/
theorem value?_half (hx : (ofDouble x).value? = some (n : ℚ)) (hn : n.natAbs < 2 ^ 53) :
    (ofDouble (x / 2)).value? = some ((n : ℚ) / 2) := by
  obtain ⟨z, -, hz⟩ := exists_ofRatio? hn (Nat.le_refl 1)
  rw [pow_one] at hz
  exact value?_eq_some_iff.2 (((value?_eq_some_iff.1 hx).half hn).pack hz)

namespace Alike

/-- Doubles that are alike are taken apart as the same or as zeros. -/
theorem sameButZero (h : Alike x y) : SameButZero x.toModel.unpack y.toModel.unpack := by
  rcases h with rfl | ⟨hx, hy⟩
  · exact Or.inl rfl
  · exact Or.inr ⟨(value?_eq_some_iff.1 hx).exists_zero, (value?_eq_some_iff.1 hy).exists_zero⟩

/-- What is put together from the same or from zeros is alike. -/
theorem of_pack {u v : UnpackedFloat} (h : SameButZero u v) (hx : x.toModel = Float.Model.pack u) (hy : y.toModel = Float.Model.pack v) :
    Alike x y := by
  rcases h with rfl | ⟨⟨s, rfl⟩, t, rfl⟩
  · exact Or.inl (eq_of_unpack_eq (congrArg Float.Model.unpack (hx.trans hy.symm)))
  · have hzero : ∀ r, (Float.Model.pack (.zero r)).unpack = .zero r := fun _ => unpack_packedZero
    refine Or.inr ⟨value?_eq_some_iff.2 ?_, value?_eq_some_iff.2 ?_⟩
    · rw [hx, hzero]
      exact Spells.zero s
    · rw [hy, hzero]
      exact Spells.zero t

/-- Sums of doubles that are alike are alike. -/
theorem add (hx : Alike x x') (hy : Alike y y') : Alike (x + y) (x' + y') :=
  of_pack (hx.sameButZero.add hy.sameButZero) rfl rfl

/-- Differences of doubles that are alike are the same, unless both of them are zeros. -/
theorem sub_eq (hx : Alike x x') (hy : Alike y y') (hne : ¬((ofDouble x).value? = some 0 ∧ (ofDouble y).value? = some 0)) :
    x - y = x' - y' := by
  -- A zero that is subtracted leaves what is not zero as it is, and from a zero that is left negated.
  have hsub : ∀ a b : Float, (a - b).toModel = Float.Model.pack (UnpackedFloat.sub Format.binary64 a.toModel.unpack b.toModel.unpack) :=
    fun _ _ => rfl
  refine eq_of_unpack_eq (congrArg Float.Model.unpack ?_)
  rw [hsub, hsub]
  rcases hx with rfl | ⟨hx, hx'⟩
  · rcases hy with rfl | ⟨hy, hy'⟩
    · rfl
    · obtain ⟨s, hs⟩ := (value?_eq_some_iff.1 hy).exists_zero
      obtain ⟨s', hs'⟩ := (value?_eq_some_iff.1 hy').exists_zero
      have hx : ¬Spells x.toModel.unpack 0 := fun h => hne ⟨value?_eq_some_iff.2 h, hy⟩
      rw [hs, hs']
      cases hu : x.toModel.unpack with
      | zero t => exact absurd (hu ▸ Spells.zero t) hx
      | notANumber | infinity _ | finite _ _ _ _ => rfl
  · obtain ⟨s, hs⟩ := (value?_eq_some_iff.1 hx).exists_zero
    obtain ⟨s', hs'⟩ := (value?_eq_some_iff.1 hx').exists_zero
    rcases hy with rfl | ⟨hy, -⟩
    · have hy : ¬Spells y.toModel.unpack 0 := fun h => hne ⟨hx, value?_eq_some_iff.2 h⟩
      rw [hs, hs']
      cases hv : y.toModel.unpack with
      | zero t => exact absurd (hv ▸ Spells.zero t) hy
      | notANumber | infinity _ | finite _ _ _ _ => rfl
    · exact absurd ⟨hx, hy⟩ hne

/-- Halves of doubles that are alike are alike. -/
theorem half (h : Alike x y) : Alike (x / 2) (y / 2) := of_pack h.sameButZero.half rfl rfl

end Alike

/-- What is subtracted from itself leaves the positive zero. -/
theorem sub_self_eq {q : ℚ} (hx : (ofDouble x).value? = some q) : x - x = ofMagnitude false 0 := by
  have hzero : (ofMagnitude false 0).toModel.unpack = .zero .positive := rfl
  have hpack : (Float.Model.pack (.zero .positive)).unpack = .zero .positive := unpack_packedZero
  have hsub : UnpackedFloat.sub Format.binary64 x.toModel.unpack x.toModel.unpack = .zero .positive := by
    rcases value?_eq_some_iff.1 hx with ⟨⟨s, hs⟩, -⟩ | ⟨s, m, e, hm, hs, -, -⟩
    · rw [hs]
      cases s <;> rfl
    · rw [hs]
      simp only [UnpackedFloat.sub, Int.sub_self]
      rfl
  refine eq_of_unpack_eq ?_
  rw [hzero, ← hpack, ← hsub]
  rfl

end Double
end VesselTraffic
