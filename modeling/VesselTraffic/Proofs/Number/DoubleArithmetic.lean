import VesselTraffic.Proofs.Number.DoubleRange

/-!
# Products and quotients of doubles

The product and the quotient of two doubles are their exact ones rounded to 53 binary digits, so the exponent of the result is not far
beyond the sum or the difference of the exponents of the operands (`upTo_mul`, `upTo_div`). As long as that keeps below the greatest
exponent the result is a number and not infinite, so it can be rounded to an integer (`exists_round_of_upTo`). The double nearest to an
integer has an exponent that the number of its digits limits (`upTo_ofInt`).
-/

namespace VesselTraffic

open Float.Model Float.Model.UnpackedFloat

namespace DoubleParts

/-- A double, taken apart, that is a number with an exponent of at most `k`. -/
def UpTo (k : Int) : UnpackedFloat → Prop
  | .zero _ => True
  | .finite _ _ e _ => e ≤ k
  | _ => False

/-- A greater bound is a bound. -/
theorem UpTo.mono {k k' : Int} (h : k ≤ k') {u : UnpackedFloat} (hu : UpTo k u) : UpTo k' u := by
  cases u with
  | zero s => trivial
  | finite s m e hm => exact Int.le_trans hu h
  | infinity s => exact hu.elim
  | notANumber => exact hu.elim

/-! ## Rounding to 53 binary digits -/

/-- A mantissa that is shifted loses its last digits. -/
theorem mantissa_shiftRight (em : ExtendedMantissa) (n : Nat) : (em >>> n).mantissa = em.mantissa / 2 ^ n := by
  induction n with
  | zero => exact (Nat.div_one _).symm
  | succ n ih =>
    have hstep : (em >>> (n + 1)).mantissa = (em >>> n).mantissa / 2 := rfl
    rw [hstep, ih, Nat.div_div_eq_div_mul, Nat.pow_succ]

/-- What is known of the digits behind a mantissa does not change it. -/
theorem mantissa_ofMantissaAndAccuracy (m : Nat) (a : Accuracy) : (ExtendedMantissa.ofMantissaAndAccuracy m a).mantissa = m := by
  cases a with
  | exact => rfl
  | inexact o => cases o <;> rfl

/-- A mantissa is rounded up by one at most. -/
theorem roundedMantissa_le (em : ExtendedMantissa) : em.roundedMantissa ≤ em.mantissa + 1 := by
  unfold ExtendedMantissa.roundedMantissa
  generalize em.accuracy = a
  unfold Accuracy.roundToNearestEven
  split <;> omega

/-- The exponent that leaves a mantissa 53 binary digits, unless it is below the smallest one. -/
theorem targetExponent_eq (m : Nat) (e : Int) :
    Format.binary64.targetExponent (totalExponent m e) = max ((m.log2 : Int) + e - 52) (-1074) := by
  have hbits : ((Format.binary64.mantissaBits : Nat) : Int) = 53 := rfl
  have hmin : Format.binary64.minExponent = -1074 := rfl
  rw [Format.targetExponent, totalExponent, hbits, hmin]
  omega

/-- Shifting to the target leaves an exponent that is not below it. -/
theorem exponent_shiftToTargetExponent (m : Nat) (e : Int) (a : Accuracy) :
    (shiftToTargetExponent Format.binary64 m e a).2 = max e (max ((m.log2 : Int) + e - 52) (-1074)) := by
  have hsnd : (shiftToTargetExponent Format.binary64 m e a).2 =
      e + (Format.binary64.targetExponent (totalExponent m e) - e).toNat := rfl
  rw [hsnd, targetExponent_eq]
  omega

/-- Shifting to the target leaves a mantissa of at most 53 binary digits, which rounding may make one digit more. -/
theorem roundedMantissa_shiftToTargetExponent_le (m : Nat) (e : Int) (a : Accuracy) :
    (shiftToTargetExponent Format.binary64 m e a).1.roundedMantissa ≤ 2 ^ 53 := by
  refine (roundedMantissa_le _).trans (Nat.succ_le_of_lt ?_)
  have hfst : (shiftToTargetExponent Format.binary64 m e a).1 =
      ExtendedMantissa.ofMantissaAndAccuracy m a >>> (Format.binary64.targetExponent (totalExponent m e) - e).toNat := rfl
  rw [hfst, mantissa_shiftRight, mantissa_ofMantissaAndAccuracy, targetExponent_eq,
    Nat.div_lt_iff_lt_mul (Nat.two_pow_pos _), ← Nat.pow_add]
  exact Nat.lt_of_lt_of_le Nat.lt_log2_self (Nat.pow_le_pow_right (by decide) (by omega))

/-- A logarithm is at most that of an upper bound. -/
theorem log2_le_of_le {m k : Nat} (h : m ≤ 2 ^ k) : m.log2 ≤ k :=
  log2_le_of_lt (Nat.lt_of_le_of_lt h (Nat.pow_lt_pow_right (by decide) (Nat.lt_succ_self k)))

/-- Rounding gives an exponent that is one greater at most than what leaves 53 binary digits. -/
theorem upTo_roundWithAccuracy {k e : Int} {m : Nat} (hk : -1074 ≤ k) (he : e ≤ k) (hm : (m.log2 : Int) + e ≤ k + 52) (s : Sign)
    (a : Accuracy) : UpTo (k + 1) (roundWithAccuracy Format.binary64 s m e a) := by
  have hexponent := exponent_shiftToTargetExponent m e a
  have hmantissa := log2_le_of_le (roundedMantissa_shiftToTargetExponent_le m e a)
  unfold roundWithAccuracy
  -- Rounding up may give the mantissa a 54th digit, which a second shift takes away again.
  generalize shiftToTargetExponent Format.binary64 m e a = first at hexponent hmantissa
  have hlast := exponent_shiftToTargetExponent first.1.roundedMantissa first.2 .exact
  simp only
  split
  · trivial
  · have hle : (shiftToTargetExponent Format.binary64 first.1.roundedMantissa first.2 .exact).2 ≤ k + 1 := by omega
    exact hle

/-! ## Packing -/

/-- Bits whose power is not the greatest are a number. -/
theorem upTo_unpack {k : Int} (hk : -1074 ≤ k) (hk' : k ≤ 971) {b : BitVec 64}
    (hb : ((@unpackExponent Format.binary64 b).toNat : Int) ≤ k + 1075) : UpTo k (UnpackedFloat.unpack Format.binary64 b) := by
  have hbias : (Format.binary64.exponentBias : Int) + (Format.binary64.mantissaBitsWithoutImplicit : Nat) = 1075 := rfl
  have hfull : ¬@unpackExponent Format.binary64 b = -1#_ := by
    intro heq
    have hpower : (@unpackExponent Format.binary64 b).toNat = 2047 := congrArg BitVec.toNat heq
    omega
  unfold UnpackedFloat.unpack
  simp only [hbias, if_neg hfull]
  split
  · rename_i hzero
    split
    · trivial
    · have hle : ((@unpackExponent Format.binary64 b).toNat : Int) - 1075 + 1 ≤ k := by
        rw [hzero]
        exact hk
      exact hle
  · have hle : ((@unpackExponent Format.binary64 b).toNat : Int) - 1075 ≤ k := by omega
    exact hle

/-- A number stays one when it is packed, if its exponent is not beyond that of the greatest double. -/
theorem upTo_pack {k : Int} (hk : -1074 ≤ k) (hk' : k ≤ 971) {u : UnpackedFloat} (h : UpTo k u) :
    UpTo k (Float.Model.pack u).unpack := by
  have hpack : (Float.Model.pack u).unpack = UnpackedFloat.unpack Format.binary64 (UnpackedFloat.pack Format.binary64 u) := rfl
  have hcomponents : ∀ s (p : BitVec 11) f, (p.toNat : Int) ≤ k + 1075 →
      UpTo k (UnpackedFloat.unpack Format.binary64 (packComponents Format.binary64 s p f)) := by
    intro s p f hp
    exact upTo_unpack hk hk' (by rw [unpackExponent_packComponents]; exact hp)
  have hzero : (((0#11).toNat : Nat) : Int) ≤ k + 1075 := Int.le_trans (by decide) (Int.add_le_add_right hk 1075)
  rw [hpack]
  cases u with
  | notANumber => exact h.elim
  | infinity s => exact h.elim
  | zero s => exact hcomponents s _ _ hzero
  | finite s m e hm =>
    have he : e ≤ k := h
    have hbias : ((Format.binary64.exponentBias : Nat) : Int) = 1023 := rfl
    have hbits : ((Format.binary64.mantissaBitsWithoutImplicit : Nat) : Int) = 52 := rfl
    unfold UnpackedFloat.pack
    simp only [hbias, hbits]
    rw [if_neg (show ¬2 ^ 11 ≤ (e + 1023 + 52).toNat + 1 by omega)]
    split
    · refine hcomponents s (BitVec.ofNat 11 _) _ ?_
      rw [BitVec.toNat_ofNat]
      omega
    · exact hcomponents s _ _ hzero

/-! ## Products and quotients -/

/-- A double, taken apart, whose mantissa has at most 53 binary digits. -/
def Fits (u : UnpackedFloat) : Prop := ∀ s m e hm, u = .finite s m e hm → m < 2 ^ 53

/-- Every double has a mantissa of at most 53 binary digits. -/
theorem fits_unpack (x : Float) : Fits x.toModel.unpack := fun _ _ _ _ h =>
  (normal_ofDouble ((ofDouble_eq x).trans (congrArg ofUnpacked h))).mantissa_lt

section

variable {k : Int} {u : UnpackedFloat} {s' : Sign} {m' : Nat} {e' : Int} (hm' : 0 < m')

/-- The exponent of a product is not far beyond the sum of the exponents. -/
theorem upTo_mul (hu : UpTo k u) (hfits : Fits u) (hlt' : m' < 2 ^ 53) (hk : -1074 ≤ k + e' + 53) :
    UpTo (k + e' + 54) (UnpackedFloat.mul Format.binary64 u (.finite s' m' e' hm')) := by
  cases u with
  | notANumber => exact hu.elim
  | infinity s => exact hu.elim
  | zero s => trivial
  | finite s m e hm =>
    have he : e ≤ k := hu
    have hlt : m * m' < 2 ^ 53 * 2 ^ 53 := Nat.mul_lt_mul'' (hfits s m e hm rfl) hlt'
    have hlog : (m * m').log2 ≤ 105 := log2_le_of_lt hlt
    have hround := upTo_roundWithAccuracy hk (e := e + e') (m := m * m') (by omega) (by omega) (s * s') .exact
    exact hround.mono (by omega)

/-- A quotient of natural numbers is not longer than its dividend. -/
theorem log2_shiftLeft_div_le (m n d : Nat) : (m <<< n / d).log2 ≤ m.log2 + n := by
  refine log2_le_of_lt (Nat.lt_of_le_of_lt (Nat.div_le_self _ d) ?_)
  rw [Nat.shiftLeft_eq, Nat.add_right_comm, Nat.pow_add]
  exact Nat.mul_lt_mul_of_pos_right Nat.lt_log2_self (Nat.two_pow_pos n)

/-- The exponent of a quotient is not far beyond the difference of the exponents. -/
theorem upTo_div (hu : UpTo k u) (hfits : Fits u) (hk : -1074 ≤ k - e') :
    UpTo (k - e' + 1) (UnpackedFloat.div Format.binary64 u (.finite s' m' e' hm')) := by
  cases u with
  | notANumber => exact hu.elim
  | infinity s => exact hu.elim
  | zero s => trivial
  | finite s m e hm =>
    have he : e ≤ k := hu
    have hlog : m.log2 ≤ 52 := log2_le_of_lt (hfits s m e hm rfl)
    have hdiv : UnpackedFloat.div Format.binary64 (.finite s m e hm) (.finite s' m' e' hm') =
        roundWithAccuracy Format.binary64 (s / s') (divCore Format.binary64 m e m' e').1 (divCore Format.binary64 m e m' e').2.1
          (divCore Format.binary64 m e m' e').2.2 := rfl
    rw [hdiv, divCore.eq_1]
    have htarget := Int.min_le_left (e - e') (Format.binary64.targetExponent (totalExponent m e - totalExponent m' e'))
    generalize min (e - e') (Format.binary64.targetExponent (totalExponent m e - totalExponent m' e')) = target at htarget
    have hquotient := log2_shiftLeft_div_le m (e - e' - target).toNat m'
    exact upTo_roundWithAccuracy hk (show target ≤ k - e' by omega) (show ((_ / m').log2 : Int) + target ≤ k - e' + 52 by omega) _ _

end

/-- The number ten is a whole number of units of its last binary place. -/
theorem unpack_ten : (10 : Float).toModel.unpack = .finite .positive (5 * 2 ^ 50) (-49) (by decide) := rfl

/-- A tenth of a double. -/
theorem upTo_div_ten {k : Int} (hk : -1074 ≤ k) (hk' : k + 50 ≤ 971) {x : Float} (h : UpTo k x.toModel.unpack) :
    UpTo (k + 50) (x / 10).toModel.unpack := by
  have hdiv : (x / 10).toModel = Float.Model.pack (UnpackedFloat.div Format.binary64 x.toModel.unpack (10 : Float).toModel.unpack) :=
    rfl
  rw [hdiv, unpack_ten]
  exact upTo_pack (by omega) hk' ((upTo_div _ h (fits_unpack x) (by omega)).mono (by omega))

/-- The tenfold of a double. -/
theorem upTo_mul_ten {k : Int} (hk : -1074 ≤ k) (hk' : k + 5 ≤ 971) {x : Float} (h : UpTo k x.toModel.unpack) :
    UpTo (k + 5) (x * 10).toModel.unpack := by
  have hmul : (x * 10).toModel = Float.Model.pack (UnpackedFloat.mul Format.binary64 x.toModel.unpack (10 : Float).toModel.unpack) :=
    rfl
  rw [hmul, unpack_ten]
  exact upTo_pack (by omega) hk' ((upTo_mul _ h (fits_unpack x) (by decide) (by omega)).mono (by omega))

end DoubleParts

namespace Double

open DoubleParts

/-- A number can be rounded to an integer. -/
theorem exists_round_of_upTo {k : Int} {x : Float} (h : UpTo k x.toModel.unpack) : ∃ r, round x = .ok r := by
  unfold round toDyadic
  rw [ofDouble_eq]
  generalize x.toModel.unpack = u at h
  cases u with
  | notANumber => exact h.elim
  | infinity s => exact h.elim
  | zero s => exact ⟨_, rfl⟩
  | finite s m e hm => exact ⟨_, rfl⟩

/-- A double that is made of magnitude bits. -/
theorem upTo_ofMagnitude {k : Int} (hk : -1074 ≤ k) (hk' : k ≤ 971) (negative : Bool) {bits : Nat}
    (h : ((bits / 2 ^ 52 : Nat) : Int) ≤ k + 1075) : UpTo k (ofMagnitude negative bits).toModel.unpack := by
  have hunpack : ∀ b : UInt64, (Float.ofBits b).toModel.unpack =
      (Float.Model.pack (UnpackedFloat.unpack Format.binary64 b.toBitVec)).unpack := fun _ => rfl
  have hsign : pow2 63 = 2 ^ 63 := rfl
  rw [ofMagnitude, hunpack]
  refine upTo_pack hk hk' (upTo_unpack hk hk' ?_)
  rw [toNat_unpackExponent, UInt64.toNat_toBitVec, UInt64.toNat_ofNat']
  split <;> omega

/-- A mantissa of 53 binary digits is not longer after its last digit is moved to another place. -/
theorem toNat_round_le {m : Nat} {e : Int} (hm : m ≤ 2 ^ 53) (h : (m.log2 : Int) + e ≤ 52) :
    (Dyadic.round ⟨m, e⟩).toNat ≤ 2 ^ 53 := by
  have hround := natAbs_round_le ⟨m, e⟩
  have hshifted : m * 2 ^ e.toNat ≤ 2 ^ 53 := by
    by_cases he : e ≤ 0
    · rw [Int.toNat_of_nonpos he, Nat.pow_zero, Nat.mul_one]
      exact hm
    · calc m * 2 ^ e.toNat ≤ 2 ^ (m.log2 + 1) * 2 ^ e.toNat := Nat.mul_le_mul_right _ Nat.lt_log2_self.le
        _ = 2 ^ (m.log2 + 1 + e.toNat) := (Nat.pow_add 2 _ _).symm
        _ ≤ 2 ^ 53 := Nat.pow_le_pow_right (by decide) (by omega)
  have hsize : (Dyadic.round ⟨m, e⟩).natAbs ≤ m * 2 ^ e.toNat := hround
  omega

/-- A double that is made of its parts. -/
theorem upTo_ofParts {k : Int} (hk : -1073 ≤ k) (hk' : k ≤ 971) {negative : Bool} {m : Nat} {e : Int} (hm : m ≤ 2 ^ 53)
    (h : (m.log2 : Int) + e ≤ k + 51) {x : Float} (hx : ofParts? negative m e = some x) : UpTo k x.toModel.unpack := by
  have hpow : pow2 52 = 2 ^ 52 := rfl
  unfold ofParts? at hx
  simp only at hx
  split at hx
  · cases hx
    exact upTo_ofMagnitude (by omega) hk' negative (by simp; omega)
  · split at hx
    · cases hx
    · split at hx
      · -- Below the smallest normal double the magnitude counts units of the smallest positive one.
        cases hx
        have hround := toNat_round_le (e := e + 1074) hm (by omega)
        exact upTo_ofMagnitude (by omega) hk' negative (by omega)
      · -- The leading one of the shifted mantissa adds itself to the power, as does a carry.
        cases hx
        have hround := toNat_round_le (e := 52 - (m.log2 : Int)) hm (by omega)
        refine upTo_ofMagnitude (by omega) hk' negative ?_
        rw [hpow]
        omega

/-- The double nearest to an integer of some binary digits. -/
theorem upTo_ofInt {n : Int} {digits : Nat} (hdigits : digits ≤ 1022) (h : n.natAbs < 2 ^ digits) {x : Float} (hx : ofInt n = .ok x) :
    UpTo ((digits : Int) - 51) x.toModel.unpack := by
  have hparts : ofRatio? n 1 = some x := by
    unfold ofInt at hx
    split at hx <;> cases hx
    assumption
  unfold ofRatio? at hparts
  by_cases hn : n = 0
  · rw [hn] at hparts
    exact upTo_ofParts (by omega) (by omega) (by decide) (by simp [Dyadic.nearest]) hparts
  · have habs : n.natAbs ≠ 0 := Int.natAbs_ne_zero.2 hn
    have hlog : n.natAbs.log2 < digits := (Nat.log2_lt habs).2 h
    have hunits := Dyadic.units_le_pow2 n.natAbs
    have hunitsLog := log2_le_of_le hunits
    rw [Dyadic.nearest, if_neg hn, Dyadic.exponentFor_one habs] at hparts
    simp only [Int.natAbs_mul, Int.natAbs_sign_of_ne_zero hn, Nat.one_mul] at hparts
    exact upTo_ofParts (by omega) (by omega) hunits (by omega) hparts

end Double
end VesselTraffic
