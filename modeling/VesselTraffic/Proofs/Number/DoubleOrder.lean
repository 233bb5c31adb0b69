import VesselTraffic.Proofs.Number.DoubleParts

/-!
# Doubles as exact numbers

A finite double is the rational number that its parts spell. Doubles are compared by sign, then by exponent, then by mantissa; because
the parts are in normal form this is the order of the numbers (`lt_iff`, `le_iff`), and the two zeros are one number.
-/

namespace VesselTraffic.DoubleParts

open Float.Model

/-- The number that parts spell, if it is one. -/
def value? : DoubleParts → Option ℚ
  | .finite negative m e => some ((if negative then -(m : ℚ) else m) * 2 ^ e)
  | _ => none

/-- Of two numbers in normal form the one with the smaller exponent is smaller. -/
theorem Normal.lt_of_exponent_lt {m₁ m₂ : ℕ} {e₁ e₂ : ℤ} (h₁ : Normal m₁ e₁) (h₂ : Normal m₂ e₂) (he : e₁ < e₂) :
    (m₁ : ℚ) * 2 ^ e₁ < m₂ * 2 ^ e₂ := by
  have hm : m₁ < 2 * m₂ := by
    have hlarge : 2 ^ 52 ≤ m₂ := by
      by_contra hlt
      have := h₂.subnormal (by omega)
      have := h₁.exponent_le
      omega
    have := h₁.mantissa_lt
    omega
  have hpow : (0 : ℚ) < 2 ^ e₁ := by positivity
  calc (m₁ : ℚ) * 2 ^ e₁ < (2 * m₂ : ℕ) * 2 ^ e₁ := by
        exact mul_lt_mul_of_pos_right (by exact_mod_cast hm) hpow
    _ = m₂ * 2 ^ (e₁ + 1) := by
        rw [zpow_add_one₀ two_ne_zero]
        push_cast
        ring
    _ ≤ m₂ * 2 ^ e₂ := by
        refine mul_le_mul_of_nonneg_left ?_ (Nat.cast_nonneg _)
        exact zpow_le_zpow_right₀ one_le_two (by omega)

/-- Numbers in normal form are ordered by their exponents, then by their mantissas. -/
theorem Normal.compare_eq {m₁ m₂ : ℕ} {e₁ e₂ : ℤ} (h₁ : Normal m₁ e₁) (h₂ : Normal m₂ e₂) :
    (compare e₁ e₂).then (compare m₁ m₂) = compare ((m₁ : ℚ) * 2 ^ e₁) (m₂ * 2 ^ e₂) := by
  rcases lt_trichotomy e₁ e₂ with he | he | he
  · rw [compare_lt_iff_lt.2 he, compare_lt_iff_lt.2 (h₁.lt_of_exponent_lt h₂ he)]
    rfl
  · subst he
    have hpow : (0 : ℚ) < 2 ^ e₁ := by positivity
    rw [compare_eq_iff_eq.2 rfl]
    rcases lt_trichotomy m₁ m₂ with hm | hm | hm
    · rw [compare_lt_iff_lt.2 hm, compare_lt_iff_lt.2 (mul_lt_mul_of_pos_right (Nat.cast_lt.2 hm) hpow)]
      rfl
    · subst hm
      rw [compare_eq_iff_eq.2 rfl, compare_eq_iff_eq.2 rfl]
      rfl
    · rw [compare_gt_iff_gt.2 hm, compare_gt_iff_gt.2 (mul_lt_mul_of_pos_right (Nat.cast_lt.2 hm) hpow)]
      rfl
  · rw [compare_gt_iff_gt.2 he, compare_gt_iff_gt.2 (h₂.lt_of_exponent_lt h₁ he)]
    rfl

/-- Negating two numbers turns their order around. -/
theorem compare_neg_neg (p q : ℚ) : compare (-p) (-q) = (compare p q).swap := by
  rcases lt_trichotomy p q with h | h | h
  · rw [compare_lt_iff_lt.2 h, compare_gt_iff_gt.2 (neg_lt_neg h)]
    rfl
  · subst h
    rw [compare_eq_iff_eq.2 rfl, compare_eq_iff_eq.2 rfl]
    rfl
  · rw [compare_gt_iff_gt.2 h, compare_lt_iff_lt.2 (neg_lt_neg h)]
    rfl

/-- Both zeros are the number zero. -/
theorem value?_zero (s : UnpackedFloat.Sign) : (ofUnpacked (.zero s)).value? = some 0 := by
  cases s <;> simp [ofUnpacked, value?]

/-- The number of a finite double that is not zero: the one that its mantissa and exponent spell, negated for a negative sign. -/
def signed (s : UnpackedFloat.Sign) (m : ℕ) (e : ℤ) : ℚ :=
  match s with
  | .negative => -(m * 2 ^ e)
  | .positive => m * 2 ^ e

/-- A finite double that is not zero spells its signed number. -/
theorem value?_finite (s : UnpackedFloat.Sign) (m : ℕ) (e : ℤ) (h : 0 < m) :
    (ofUnpacked (.finite s m e h)).value? = some (signed s m e) := by
  cases s <;> simp [ofUnpacked, value?, isNegative, signed]

/-- Finite doubles in normal form that are not zero are compared as their signed numbers. -/
theorem compare_finite_finite {m m' : ℕ} {e e' : ℤ} (n : Normal m e) (n' : Normal m' e') (h : 0 < m) (h' : 0 < m')
    (s s' : UnpackedFloat.Sign) :
    (UnpackedFloat.finite s m e h).compare (.finite s' m' e' h') = some (compare (signed s m e) (signed s' m' e')) := by
  have hpos : (0 : ℚ) < m * 2 ^ e := by positivity
  have hpos' : (0 : ℚ) < m' * 2 ^ e' := by positivity
  have hsame := n.compare_eq n'
  cases s with
  | negative =>
    cases s' with
    | negative =>
      rw [signed, signed, compare_neg_neg, ← hsame]
      rfl
    | positive =>
      rw [signed, signed, compare_lt_iff_lt.2 (by linarith)]
      rfl
  | positive =>
    cases s' with
    | negative =>
      rw [signed, signed, compare_gt_iff_gt.2 (by linarith)]
      rfl
    | positive =>
      rw [signed, signed, ← hsame]
      rfl

/-- A zero is compared with a finite double that is not zero as with its signed number. -/
theorem compare_zero_finite (t s : UnpackedFloat.Sign) {m : ℕ} (e : ℤ) (h : 0 < m) :
    (UnpackedFloat.zero t).compare (.finite s m e h) = some (compare 0 (signed s m e)) := by
  have hpos : (0 : ℚ) < m * 2 ^ e := by positivity
  cases s with
  | negative =>
    rw [signed, compare_gt_iff_gt.2 (neg_lt_zero.2 hpos)]
    rfl
  | positive =>
    rw [signed, compare_lt_iff_lt.2 hpos]
    rfl

/-- A finite double that is not zero is compared with a zero as its signed number is with the number zero. -/
theorem compare_finite_zero (s t : UnpackedFloat.Sign) {m : ℕ} (e : ℤ) (h : 0 < m) :
    (UnpackedFloat.finite s m e h).compare (.zero t) = some (compare (signed s m e) 0) := by
  have hpos : (0 : ℚ) < m * 2 ^ e := by positivity
  cases s with
  | negative =>
    rw [signed, compare_lt_iff_lt.2 (neg_lt_zero.2 hpos)]
    rfl
  | positive =>
    rw [signed, compare_gt_iff_gt.2 hpos]
    rfl

/-- A finite double is compared as the number that its parts spell. -/
theorem unpacked_compare_eq {f g : UnpackedFloat} {p q : ℚ} (hf : (ofUnpacked f).value? = some p)
    (hg : (ofUnpacked g).value? = some q) (nf : ∀ s m e, ofUnpacked f = .finite s m e → Normal m e)
    (ng : ∀ s m e, ofUnpacked g = .finite s m e → Normal m e) : f.compare g = some (compare p q) := by
  cases f with
  | infinity s => cases hf
  | notANumber => cases hf
  | zero s =>
    rw [value?_zero] at hf
    cases hf
    cases g with
    | infinity s' => cases hg
    | notANumber => cases hg
    | zero s' =>
      rw [value?_zero] at hg
      cases hg
      rw [compare_eq_iff_eq.2 rfl]
      rfl
    | finite s' m' e' h' =>
      rw [value?_finite] at hg
      cases hg
      exact compare_zero_finite s s' e' h'
  | finite s m e h =>
    rw [value?_finite] at hf
    cases hf
    cases g with
    | infinity s' => cases hg
    | notANumber => cases hg
    | zero s' =>
      rw [value?_zero] at hg
      cases hg
      exact compare_finite_zero s s' e h
    | finite s' m' e' h' =>
      rw [value?_finite] at hg
      cases hg
      exact compare_finite_finite (nf _ _ _ rfl) (ng _ _ _ rfl) h h' s s'

/-- Two doubles that are numbers are compared as those numbers. -/
theorem compare_eq {x y : Float} {p q : ℚ} (hx : (ofDouble x).value? = some p) (hy : (ofDouble y).value? = some q) :
    x.toModel.unpack.compare y.toModel.unpack = some (compare p q) := by
  have normal : ∀ (z : Float) s m e, ofUnpacked z.toModel.unpack = .finite s m e → Normal m e := fun z s m e h =>
    normal_ofDouble ((ofDouble_eq z).trans h)
  exact unpacked_compare_eq (ofDouble_eq x ▸ hx) (ofDouble_eq y ▸ hy) (normal x) (normal y)

/-- Less than, for two doubles that are numbers. -/
theorem lt_iff {x y : Float} {p q : ℚ} (hx : (ofDouble x).value? = some p) (hy : (ofDouble y).value? = some q) :
    x < y ↔ p < q := by
  have hlt : x < y ↔ (x.toModel.unpack.compare y.toModel.unpack == some .lt) = true := decide_eq_true_iff
  rw [hlt, compare_eq hx hy, ← compare_lt_iff_lt]
  simp

/-- At most, for two doubles that are numbers. -/
theorem le_iff {x y : Float} {p q : ℚ} (hx : (ofDouble x).value? = some p) (hy : (ofDouble y).value? = some q) :
    x ≤ y ↔ p ≤ q := by
  have hle : x ≤ y ↔ (x.toModel.unpack.compare y.toModel.unpack).any (·.isLE) = true := decide_eq_true_iff
  rw [hle, compare_eq hx hy, ← compare_le_iff_le]
  simp [Ordering.isLE_iff_ne_gt]

end VesselTraffic.DoubleParts
