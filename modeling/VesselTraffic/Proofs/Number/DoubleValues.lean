import VesselTraffic.Number.Quantity
import VesselTraffic.Proofs.Number.DoubleOrder
import VesselTraffic.Proofs.Number.DoubleRange

/-!
# Doubles that stand for the same number

A double is taken apart as a zero or as a number in normal form, and there is only one such form for a number (`Spells.unique`). So two
doubles that stand for the same number are the same, up to the sign of a zero (`Double.alike_of_value?`). The double nearest to a quotient
of an integer of at most 53 binary digits by one or two stands for that quotient itself (`Double.exists_ofRatio?`).
-/

namespace VesselTraffic

open Float.Model Float.Model.UnpackedFloat

namespace DoubleParts

/-- A number in normal form that is not zero has a sign, a mantissa and an exponent in one way. -/
theorem signed_inj {s s' : Sign} {m m' : ℕ} {e e' : ℤ} (n : Normal m e) (n' : Normal m' e') (hm : 0 < m) (hm' : 0 < m')
    (h : signed s m e = signed s' m' e') : s = s' ∧ m = m' ∧ e = e' := by
  have hpos : (0 : ℚ) < m * 2 ^ e := by positivity
  have hpos' : (0 : ℚ) < m' * 2 ^ e' := by positivity
  have hparts : (m : ℚ) * 2 ^ e = m' * 2 ^ e' → m = m' ∧ e = e' := by
    intro heq
    have hcompare := n.compare_eq n'
    rw [compare_eq_iff_eq.2 heq, Ordering.then_eq_eq, compare_eq_iff_eq, compare_eq_iff_eq] at hcompare
    exact ⟨hcompare.2, hcompare.1⟩
  cases s <;> cases s' <;> simp only [signed] at h
  · exact ⟨rfl, hparts (neg_inj.1 h)⟩
  · linarith
  · linarith
  · exact ⟨rfl, hparts h⟩

/-- A number with a positive mantissa is not zero. -/
theorem signed_ne_zero (s : Sign) {m : ℕ} (hm : 0 < m) (e : ℤ) : signed s m e ≠ 0 := by
  have hpos : (0 : ℚ) < m * 2 ^ e := by positivity
  cases s
  · exact (neg_lt_zero.2 hpos).ne
  · exact hpos.ne'

/-- What is taken apart spells a number: it is a zero, or the number in normal form. -/
def Spells (u : UnpackedFloat) (q : ℚ) : Prop :=
  (∃ s, u = .zero s) ∧ q = 0 ∨ ∃ s m e, ∃ hm : 0 < m, u = .finite s m e hm ∧ Normal m e ∧ signed s m e = q

namespace Spells

variable {u v : UnpackedFloat} {q : ℚ}

/-- A zero spells the number zero. -/
theorem zero (s : Sign) : Spells (.zero s) 0 := Or.inl ⟨⟨s, rfl⟩, rfl⟩

/-- What spells the number zero is a zero. -/
theorem exists_zero (h : Spells u 0) : ∃ s, u = .zero s := by
  rcases h with ⟨hs, -⟩ | ⟨s, m, e, hm, -, -, hq⟩
  · exact hs
  · exact absurd hq (signed_ne_zero s hm e)

/-- What spells another number than zero is that number in normal form. -/
theorem exists_finite (h : Spells u q) (hq : q ≠ 0) :
    ∃ s m e, ∃ hm : 0 < m, u = .finite s m e hm ∧ Normal m e ∧ signed s m e = q := by
  rcases h with ⟨-, hzero⟩ | h
  · exact absurd hzero hq
  · exact h

/-- What spells another number than zero is the only one to do so. -/
theorem unique (hu : Spells u q) (hv : Spells v q) (hq : q ≠ 0) : u = v := by
  obtain ⟨s, m, e, hm, rfl, n, hs⟩ := hu.exists_finite hq
  obtain ⟨s', m', e', hm', rfl, n', hs'⟩ := hv.exists_finite hq
  obtain ⟨rfl, rfl, rfl⟩ := signed_inj n n' hm hm' (hs.trans hs'.symm)
  rfl

end Spells

/-- The mantissa of 53 binary digits of a natural number that has at most as many. -/
theorem scaled_bounds {n : ℕ} (hn : n ≠ 0) (hlt : n < 2 ^ 53) :
    n.log2 ≤ 52 ∧ 2 ^ 52 ≤ n * 2 ^ (52 - n.log2) ∧ n * 2 ^ (52 - n.log2) < 2 ^ 53 := by
  have hlog : n.log2 ≤ 52 := log2_le_of_lt hlt
  have hlow := Nat.mul_le_mul_right (2 ^ (52 - n.log2)) (Nat.log2_self_le hn)
  have hhigh := Nat.mul_lt_mul_of_pos_right (@Nat.lt_log2_self n) (Nat.two_pow_pos (52 - n.log2))
  rw [← Nat.pow_add] at hlow hhigh
  have hsum : n.log2 + (52 - n.log2) = 52 := by omega
  have hsum' : n.log2 + 1 + (52 - n.log2) = 53 := by omega
  rw [hsum] at hlow
  rw [hsum'] at hhigh
  exact ⟨hlog, hlow, hhigh⟩

/-- The number of that mantissa is the natural number, for the exponent that goes with it, or a part of it. -/
theorem scaled_value {n : ℕ} (hlog : n.log2 ≤ 52) (j : ℕ) :
    ((n * 2 ^ (52 - n.log2) : ℕ) : ℚ) * 2 ^ ((n.log2 : ℤ) - 52 - j) = n / 2 ^ j := by
  have hexponent : ((n.log2 : ℤ) - 52 - j) = -((52 - n.log2 : ℕ) : ℤ) - j := by omega
  rw [hexponent, zpow_sub₀ two_ne_zero, zpow_neg, zpow_natCast, zpow_natCast]
  push_cast
  field_simp

/-- A double stands for a number exactly if it is taken apart as one that spells it. -/
theorem value?_eq_some_iff {x : Float} {q : ℚ} : (ofDouble x).value? = some q ↔ Spells x.toModel.unpack q := by
  have hnormal : ∀ s m e, ofUnpacked x.toModel.unpack = .finite s m e → Normal m e := fun s m e hx =>
    normal_ofDouble ((ofDouble_eq x).trans hx)
  rw [ofDouble_eq]
  generalize x.toModel.unpack = u at hnormal
  cases u with
  | notANumber => exact iff_of_false nofun (by rintro (⟨⟨s, h⟩, -⟩ | ⟨s, m, e, hm, h, -⟩) <;> cases h)
  | infinity s => exact iff_of_false nofun (by rintro (⟨⟨s, h⟩, -⟩ | ⟨s, m, e, hm, h, -⟩) <;> cases h)
  | zero s =>
    rw [value?_zero, Option.some.injEq]
    constructor
    · rintro rfl
      exact Spells.zero s
    · rintro (⟨-, h⟩ | ⟨t, m, e, hm, h, -⟩)
      · exact h.symm
      · cases h
  | finite s m e hm =>
    rw [value?_finite, Option.some.injEq]
    constructor
    · intro h
      exact Or.inr ⟨s, m, e, hm, rfl, hnormal _ _ _ rfl, h⟩
    · rintro (⟨⟨t, h⟩, -⟩ | ⟨t, k, i, hk, h, -, hq⟩)
      · cases h
      · cases h
        exact hq

/-- Doubles that are taken apart in the same way are the same. -/
theorem eq_of_unpack_eq {x y : Float} (h : x.toModel.unpack = y.toModel.unpack) : x = y := by
  have hbits := (unpack_inj_of_valid x.toModel.valid y.toModel.valid).1 h
  obtain ⟨⟨⟨_⟩, _⟩⟩ := x
  obtain ⟨⟨⟨_⟩, _⟩⟩ := y
  cases hbits
  rfl

/-- What spells the number that a double stands for spells it still after it was put together. -/
theorem Spells.pack {u : UnpackedFloat} {q : ℚ} (hu : Spells u q) {x : Float} (hx : (ofDouble x).value? = some q) :
    Spells (Float.Model.pack u).unpack q := by
  by_cases hq : q = 0
  · subst hq
    obtain ⟨s, rfl⟩ := hu.exists_zero
    have hzero : (Float.Model.pack (.zero s)).unpack = .zero s := unpack_packedZero
    rw [hzero]
    exact Spells.zero s
  · have hparts := value?_eq_some_iff.1 hx
    have hpack : (Float.Model.pack x.toModel.unpack).unpack = x.toModel.unpack :=
      congrArg (UnpackedFloat.unpack Format.binary64) (pack_unpack_of_valid x.toModel.valid)
    rw [hu.unique hparts hq, hpack]
    exact hparts

end DoubleParts

namespace Double

open DoubleParts

/-! ## Doubles up to the sign of a zero -/

/-- Two doubles that are the same up to the sign of a zero. -/
def Alike (x y : Float) : Prop := x = y ∨ (ofDouble x).value? = some 0 ∧ (ofDouble y).value? = some 0

/-- Doubles that stand for the same number other than zero are the same. -/
theorem eq_of_value? {x y : Float} {q : ℚ} (hx : (ofDouble x).value? = some q) (hy : (ofDouble y).value? = some q) (hq : q ≠ 0) :
    x = y :=
  eq_of_unpack_eq ((value?_eq_some_iff.1 hx).unique (value?_eq_some_iff.1 hy) hq)

/-- Doubles that stand for the same number are the same up to the sign of a zero. -/
theorem alike_of_value? {x y : Float} {q : ℚ} (hx : (ofDouble x).value? = some q) (hy : (ofDouble y).value? = some q) : Alike x y := by
  by_cases hq : q = 0
  · exact Or.inr ⟨hq ▸ hx, hq ▸ hy⟩
  · exact Or.inl (eq_of_value? hx hy hq)

namespace Alike

variable {x y z : Float}

/-- A double is like itself. -/
theorem refl (x : Float) : Alike x x := Or.inl rfl

/-- Being alike goes both ways. -/
theorem symm (h : Alike x y) : Alike y x := h.imp Eq.symm And.symm

/-- What is like something that is like a third is like that third. -/
theorem trans (h : Alike x y) (h' : Alike y z) : Alike x z := by
  rcases h with rfl | ⟨hx, hy⟩
  · exact h'
  · rcases h' with rfl | ⟨-, hz⟩
    · exact Or.inr ⟨hx, hy⟩
    · exact Or.inr ⟨hx, hz⟩

end Alike

/-! ## Quotients that are doubles -/

/-- A double that is made of magnitude bits, if they are not beyond those of the greatest double. -/
theorem ofDouble_ofMagnitude (negative : Bool) {bits : ℕ} (h : bits < 2047 * 2 ^ 52) :
    ofDouble (ofMagnitude negative bits) =
      if bits / 2 ^ 52 = 0 then .finite negative bits (-1074)
      else .finite negative (2 ^ 52 + bits % 2 ^ 52) ((bits / 2 ^ 52 : ℕ) - 1075) := by
  have hsign : pow2 63 = 2 ^ 63 := rfl
  have hpow : pow2 52 = 2 ^ 52 := rfl
  have hbits : (ofMagnitude negative bits).toBits.toNat = if negative then 2 ^ 63 + bits else bits := by
    have hlt : (if negative then 2 ^ 63 + bits else bits) < 2 ^ 64 := by split <;> omega
    have hnat : (UInt64.ofNat (if negative then 2 ^ 63 + bits else bits)).toNat = if negative then 2 ^ 63 + bits else bits := by
      rw [UInt64.toNat_ofNat', Nat.mod_eq_of_lt hlt]
    -- Such bits do not spell what is not a number, so they stay what they are.
    have hvalid : Format.binary64.Valid (UInt64.ofNat (if negative then 2 ^ 63 + bits else bits)).toBitVec := by
      refine ⟨fun hfull => ?_⟩
      have hpower := congrArg BitVec.toNat hfull
      rw [toNat_unpackExponent, UInt64.toNat_toBitVec, hnat] at hpower
      have hones : (-BitVec.ofNat Format.binary64.exponentBits 1).toNat = 2047 := rfl
      rw [hones] at hpower
      split at hpower <;> omega
    have hpack := pack_unpack_of_valid hvalid
    have htoBits : ∀ b : UInt64, (Float.ofBits b).toBits.toNat =
        (UnpackedFloat.pack Format.binary64 (UnpackedFloat.unpack Format.binary64 b.toBitVec)).toNat := fun _ => rfl
    rw [ofMagnitude, hsign, htoBits, hpack, UInt64.toNat_toBitVec, hnat]
  unfold ofDouble
  simp only [hbits, hsign, hpow]
  cases negative with
  | false =>
    simp only [Bool.false_eq_true, if_false]
    have hpower : bits / 2 ^ 52 % 2048 = bits / 2 ^ 52 := by omega
    have hpositive : decide (2 ^ 63 ≤ bits) = false := by simp; omega
    rw [hpower, hpositive, if_neg (by omega)]
    split
    · rw [Nat.mod_eq_of_lt (by omega)]
    · rfl
  | true =>
    simp only [if_true]
    have hpower : (2 ^ 63 + bits) / 2 ^ 52 % 2048 = bits / 2 ^ 52 := by omega
    have hfraction : (2 ^ 63 + bits) % 2 ^ 52 = bits % 2 ^ 52 := by omega
    have hnegative : decide (2 ^ 63 ≤ 2 ^ 63 + bits) = true := by simp
    rw [hpower, hfraction, hnegative, if_neg (by omega)]
    split
    · rw [Nat.mod_eq_of_lt (by omega)]
    · rfl

/-- The exponent that leaves a natural number, or a part of it, 53 binary digits. -/
theorem exponentFor_pow2 {m : ℕ} (hm : m ≠ 0) (j : ℕ) : Dyadic.exponentFor m (pow2 j) = (m.log2 : ℤ) - 52 - j := by
  have hlow := Nat.log2_self_le hm
  have hdivisor : (pow2 j).log2 = j := Nat.log2_two_pow
  have hle : pow2 j * pow2 ((m.log2 : ℤ) - j).toNat ≤ m * pow2 (-((m.log2 : ℤ) - j)).toNat := by
    rw [← pow2_add]
    by_cases hjl : j ≤ m.log2
    · have hsum : j + ((m.log2 : ℤ) - j).toNat = m.log2 := by omega
      have hzero : (-((m.log2 : ℤ) - j)).toNat = 0 := by omega
      rw [hsum, hzero]
      exact hlow.trans (Nat.le_mul_of_pos_right m (pow2_pos 0))
    · have hsum : j + ((m.log2 : ℤ) - j).toNat = m.log2 + (j - m.log2) := by omega
      have hrest : (-((m.log2 : ℤ) - j)).toNat = j - m.log2 := by omega
      rw [hsum, hrest, pow2_add]
      exact Nat.mul_le_mul_right _ hlow
  unfold Dyadic.exponentFor
  simp only [hdivisor, if_pos hle]
  omega

/-- A natural number of at most 53 binary digits is a whole number of the units for its rounding. -/
theorem units_pow2 {m : ℕ} (hlog : m.log2 ≤ 52) (j : ℕ) :
    Dyadic.units m (pow2 j) ((m.log2 : ℤ) - 52 - j) = (m * 2 ^ (52 - m.log2) : ℕ) := by
  have hnegative : (-((m.log2 : ℤ) - 52 - j)).toNat = (52 - m.log2) + j := by omega
  have hpositive : ((m.log2 : ℤ) - 52 - j).toNat = 0 := by omega
  have hone : pow2 0 = 1 := rfl
  have hpow : pow2 (52 - m.log2) = 2 ^ (52 - m.log2) := rfl
  rw [Dyadic.units, hnegative, hpositive, hone, Nat.mul_one, pow2_add, ← Nat.mul_assoc, hpow, Nat.cast_mul]
  exact roundHalfEven_mul _ (pow2_pos j)

/-- A mantissa of 53 binary digits with a small exponent makes the double that it spells. -/
theorem exists_ofParts_normal (negative : Bool) {m : ℕ} {e : ℤ} (hlow : 2 ^ 52 ≤ m) (hhigh : m < 2 ^ 53) (he : -1074 ≤ e)
    (he' : e ≤ 970) : ∃ x, ofParts? negative m e = some x ∧ ofDouble x = .finite negative m e := by
  have hlog : m.log2 = 52 := (Nat.log2_eq_iff (by omega)).2 ⟨hlow, hhigh⟩
  have hpow : pow2 52 = 2 ^ 52 := rfl
  have hround : Dyadic.round ⟨m, 0⟩ = m := by
    have hnum : Dyadic.num ⟨m, 0⟩ = (m : ℤ) * (1 : ℕ) := rfl
    have hden : Dyadic.den ⟨m, 0⟩ = 1 := rfl
    rw [Dyadic.round, hnum, hden]
    exact roundHalfEven_mul m Nat.one_pos
  have hbits : (e + 1074).toNat * 2 ^ 52 + m < 2047 * 2 ^ 52 := by omega
  have hpower : ((e + 1074).toNat * 2 ^ 52 + m) / 2 ^ 52 = (e + 1075).toNat := by omega
  have hfraction : ((e + 1074).toNat * 2 ^ 52 + m) % 2 ^ 52 = m - 2 ^ 52 := by omega
  refine ⟨ofMagnitude negative ((e + 1074).toNat * 2 ^ 52 + m), ?_, ?_⟩
  · have htop : 52 + e + 1022 = e + 1074 := by omega
    unfold ofParts?
    simp only [hlog, Nat.cast_ofNat, sub_self, hround, hpow]
    rw [if_neg (by omega), if_neg (by omega), if_neg (by omega), Int.toNat_natCast, htop]
  · have hmantissa : 2 ^ 52 + (m - 2 ^ 52) = m := by omega
    have hexponent : ((e + 1075).toNat : ℤ) - 1075 = e := by omega
    rw [ofDouble_ofMagnitude negative hbits, hpower, hfraction, if_neg (by omega), hmantissa, hexponent]

/-- The double nearest to an integer of at most 53 binary digits, or to its half, stands for that number. -/
theorem exists_ofRatio? {n : ℤ} (h : n.natAbs < 2 ^ 53) {j : ℕ} (hj : j ≤ 1) :
    ∃ x, ofRatio? n (pow2 j) = some x ∧ (ofDouble x).value? = some ((n : ℚ) / 2 ^ j) := by
  by_cases hn : n = 0
  · subst hn
    have hzero : ofDouble (ofMagnitude false 0) = .finite false 0 (-1074) := ofDouble_ofMagnitude false (by decide)
    exact ⟨ofMagnitude false 0, rfl, by simp [hzero, value?]⟩
  · have habs : n.natAbs ≠ 0 := Int.natAbs_ne_zero.2 hn
    obtain ⟨hlog, hlow, hhigh⟩ := scaled_bounds habs h
    obtain ⟨x, hx, hparts⟩ := exists_ofParts_normal (decide (n < 0)) (e := (n.natAbs.log2 : ℤ) - 52 - j) hlow hhigh
      (by omega) (by omega)
    refine ⟨x, ?_, ?_⟩
    · rw [ofRatio?, Dyadic.nearest, if_neg hn]
      simp only [exponentFor_pow2 habs, units_pow2 hlog, Int.natAbs_mul, Int.natAbs_sign_of_ne_zero hn, Nat.one_mul, Int.natAbs_natCast]
      exact hx
    · have hvalue := scaled_value hlog j
      have hneg := neg_mul ((n.natAbs * 2 ^ (52 - n.natAbs.log2) : ℕ) : ℚ) (2 ^ ((n.natAbs.log2 : ℤ) - 52 - j))
      rw [hparts, value?]
      rcases lt_or_gt_of_ne hn with hneg' | hpos
      · have hcast : (n : ℚ) = -(n.natAbs : ℕ) := by
          rw [← Int.cast_natCast, Int.ofNat_natAbs_of_nonpos hneg'.le]
          push_cast
          ring
        rw [decide_eq_true hneg', if_pos rfl, hneg, hvalue, hcast, neg_div]
      · have hcast : (n : ℚ) = (n.natAbs : ℕ) := by
          rw [← Int.cast_natCast, Int.natAbs_of_nonneg hpos.le]
        rw [decide_eq_false (by omega), if_neg Bool.false_ne_true, hvalue, hcast]

end Double
end VesselTraffic
