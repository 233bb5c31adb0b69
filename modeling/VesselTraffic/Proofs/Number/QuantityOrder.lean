import VesselTraffic.Number.Quantity
import VesselTraffic.Proofs.Number.DoubleOrder

/-!
# Quantities as exact numbers

A quantity that is no infinite double and not a number stands for a rational number, and quantities are compared as the numbers that they
stand for, an integer with a double too (`lt_iff`, `le_iff`). What lies between two integers stands for a number.
-/

namespace VesselTraffic

namespace Dyadic

/-- The quotient that a binary number is written as is the number. -/
theorem num_div_den (d : Dyadic) : (d.num : ℚ) / d.den = d.mantissa * 2 ^ d.exponent := by
  have hpow : ∀ k : ℕ, ((pow2 k : ℕ) : ℚ) = 2 ^ k := fun k => Nat.cast_pow 2 k
  unfold num den
  push_cast
  rw [hpow, hpow, mul_div_assoc, ← zpow_natCast, ← zpow_natCast, ← zpow_sub₀ two_ne_zero]
  congr 2
  omega

/-- The denominator of a binary number is positive. -/
theorem den_pos (d : Dyadic) : (0 : ℚ) < d.den := Nat.cast_pos.2 (pow2_pos _)

end Dyadic

namespace Quantity

/-- The number that a quantity stands for, if it stands for one. -/
def value? : Quantity → Option ℚ
  | .whole n => some n
  | .real x => (DoubleParts.ofDouble x).value?

/-- An integer is compared with a double that is a number as with the numerator and the denominator of that number. -/
theorem compareWhole_eq {x : Float} {q : ℚ} (hx : (DoubleParts.ofDouble x).value? = some q) (n : ℤ) (exact_ : ℤ → ℤ → Bool) :
    ∃ d : Dyadic, compareWhole n x exact_ = exact_ (n * d.den) d.num ∧ (d.num : ℚ) / d.den = q := by
  unfold compareWhole
  cases h : DoubleParts.ofDouble x with
  | nan =>
    rw [h] at hx
    cases hx
  | infinite negative =>
    rw [h] at hx
    cases hx
  | finite negative m e =>
    rw [h] at hx
    refine ⟨⟨if negative then -(m : ℤ) else m, e⟩, rfl, ?_⟩
    rw [Dyadic.num_div_den, ← Option.some.inj hx]
    cases negative <;> simp

/-- Less than, for two quantities that stand for numbers. -/
theorem lt_iff {a b : Quantity} {p q : ℚ} (ha : a.value? = some p) (hb : b.value? = some q) : a.lt b = true ↔ p < q := by
  cases a with
  | whole m =>
    cases ha
    cases b with
    | whole n =>
      cases hb
      rw [lt, decide_eq_true_iff, Int.cast_lt]
    | real y =>
      obtain ⟨d, hd, rfl⟩ := compareWhole_eq hb m fun a b => a < b
      rw [lt, hd, decide_eq_true_iff, lt_div_iff₀ d.den_pos]
      exact_mod_cast Iff.rfl
  | real x =>
    cases b with
    | whole n =>
      cases hb
      obtain ⟨d, hd, rfl⟩ := compareWhole_eq ha n fun a b => b < a
      rw [lt, hd, decide_eq_true_iff, div_lt_iff₀ d.den_pos]
      exact_mod_cast Iff.rfl
    | real y => rw [lt, decide_eq_true_iff, DoubleParts.lt_iff ha hb]

/-- At most, for two quantities that stand for numbers. -/
theorem le_iff {a b : Quantity} {p q : ℚ} (ha : a.value? = some p) (hb : b.value? = some q) : a.le b = true ↔ p ≤ q := by
  cases a with
  | whole m =>
    cases ha
    cases b with
    | whole n =>
      cases hb
      rw [le, decide_eq_true_iff, Int.cast_le]
    | real y =>
      obtain ⟨d, hd, rfl⟩ := compareWhole_eq hb m fun a b => a ≤ b
      rw [le, hd, decide_eq_true_iff, le_div_iff₀ d.den_pos]
      exact_mod_cast Iff.rfl
  | real x =>
    cases b with
    | whole n =>
      cases hb
      obtain ⟨d, hd, rfl⟩ := compareWhole_eq ha n fun a b => b ≤ a
      rw [le, hd, decide_eq_true_iff, div_le_iff₀ d.den_pos]
      exact_mod_cast Iff.rfl
    | real y => rw [le, decide_eq_true_iff, DoubleParts.le_iff ha hb]

/-- A quantity between two integers stands for a number between them. -/
theorem exists_value_of_bounds {m n : ℤ} {a : Quantity} (hm : (whole m).le a = true) (hn : a.le (.whole n) = true) :
    ∃ q, a.value? = some q ∧ (m : ℚ) ≤ q ∧ q ≤ n := by
  have hvalue : ∃ q, a.value? = some q := by
    cases a with
    | whole k => exact ⟨k, rfl⟩
    | real x =>
      simp only [le, compareWhole] at hm hn
      cases h : DoubleParts.ofDouble x with
      | nan =>
        rw [h] at hm
        cases hm
      | infinite negative =>
        rw [h] at hm hn
        cases negative with
        | true => cases hm
        | false => cases hn
      | finite negative k e =>
        rw [value?, h]
        exact ⟨_, rfl⟩
  obtain ⟨q, hq⟩ := hvalue
  exact ⟨q, hq, (le_iff rfl hq).1 hm, (le_iff hq rfl).1 hn⟩

end Quantity
end VesselTraffic
