import VesselTraffic.Geo.Sphere
import VesselTraffic.Number.Rounding
import VesselTraffic.Proofs.Geo.Growth

/-!
# Navigation in exact coordinates

Rational coordinates are compared and interpolated without rounding. A coordinate between two known ones is then between them
(`between_mem_uIcc`), and a box that covers two positions covers all that is between them (`Extent.Covers.of_mem_uIcc`). How positions
are reckoned from course and speed is left open.
-/

namespace VesselTraffic

/-- How positions are reckoned in exact coordinates; nothing is asked of it. -/
class Reckoning where
  /-- The position some milliseconds after a known one, at a constant course and speed. -/
  reckon : (start : Position ℚ) → (course speed : ℚ) → (elapsed : Int) → Except NumberFault (Position ℚ)

namespace Exact

/-- The coordinate over `t` of the line through two known ones, the nearer one's outside of them. -/
def between (t t₁ : Int) (x₁ : ℚ) (t₂ : Int) (x₂ : ℚ) : ℚ :=
  if t ≤ t₁ then x₁ else if t₂ ≤ t then x₂ else (x₂ - x₁) / (t₂ - t₁) * (t - t₁) + x₁

/-- The integer nearest to a rational number, the even one of two equally near. -/
def round (q : ℚ) : Int := roundHalfEven q.num q.den

/-- Whether a speed and a course, in whole tenths, are both available. -/
def hasMotion (speed course : ℚ) : Bool :=
  round (speed * 10) < Sphere.speedNotAvailable && round (course * 10) < Sphere.courseNotAvailable

end Exact

instance [Reckoning] : Navigation ℚ where
  le a b := decide (a ≤ b)
  lt a b := decide (a < b)
  degrees n := n
  tenths n := .ok (n / 10)
  hasMotion speed course := .ok (Exact.hasMotion speed course)
  interpolate t t₁ x₁ t₂ x₂ := .ok (Exact.between t t₁ x₁ t₂ x₂)
  reckon := Reckoning.reckon

/-- A coordinate over a time is between the two that it is interpolated from. -/
theorem Exact.between_mem_uIcc (t t₁ : Int) (x₁ : ℚ) (t₂ : Int) (x₂ : ℚ) : between t t₁ x₁ t₂ x₂ ∈ Set.uIcc x₁ x₂ := by
  unfold between
  split
  · exact Set.left_mem_uIcc
  · split
    · exact Set.right_mem_uIcc
    · rename_i h₁ h₂
      have hpassed : (0 : ℚ) < t - t₁ := sub_pos.2 (Int.cast_lt.2 (Int.not_le.1 h₁))
      have hahead : (t : ℚ) - t₁ ≤ t₂ - t₁ := sub_le_sub_right (Int.cast_le.2 (Int.le_of_lt (Int.not_le.1 h₂))) _
      -- The part of the way that has passed.
      have hpart : (x₂ - x₁) / (t₂ - t₁) * (t - t₁) = (x₂ - x₁) * ((t - t₁) / (t₂ - t₁)) := by ring
      have hnonneg : (0 : ℚ) ≤ (t - t₁) / (t₂ - t₁) := div_nonneg hpassed.le (hpassed.le.trans hahead)
      have hle : ((t : ℚ) - t₁) / (t₂ - t₁) ≤ 1 := div_le_one_of_le₀ hahead (hpassed.le.trans hahead)
      rw [hpart, Set.mem_uIcc]
      rcases le_total x₁ x₂ with hx | hx
      · have hway : 0 ≤ x₂ - x₁ := sub_nonneg.2 hx
        exact Or.inl ⟨le_add_of_nonneg_left (mul_nonneg hway hnonneg), by linarith [mul_le_of_le_one_right hway hle]⟩
      · have hway : x₂ - x₁ ≤ 0 := sub_nonpos.2 hx
        exact Or.inr ⟨by linarith [mul_le_mul_of_nonpos_left hle hway],
          add_le_of_nonpos_left (mul_nonpos_of_nonpos_of_nonneg hway hnonneg)⟩

variable [Reckoning]

/-- Exact coordinates are compared as in a linear order. -/
theorem Exact.orderedOn : OrderedOn (fun _ : ℚ => True) Navigation.le Navigation.lt where
  total a b _ _ := by
    simp only [Navigation.le, decide_eq_true_iff]
    exact le_total a b
  trans a b c _ _ _ hab hbc := decide_eq_true ((of_decide_eq_true hab).trans (of_decide_eq_true hbc))
  strict_iff a b _ _ := by
    simp only [Navigation.le, Navigation.lt, decide_eq_true_iff, not_le]

namespace Extent

/-- A box contains the positions whose coordinates are between its sides. -/
theorem contains_iff_mem_Icc {e : Extent ℚ} {p : Position ℚ} :
    e.contains p = true ↔ p.lat ∈ Set.Icc e.latMin e.latMax ∧ p.lon ∈ Set.Icc e.lonMin e.lonMax := by
  rw [contains_iff]
  simp only [Navigation.le, decide_eq_true_iff, Set.mem_Icc]

/-- A box that covers two positions covers all that is between them. -/
theorem Covers.of_mem_uIcc {box : Option (Extent ℚ)} {p q r : Position ℚ} (hp : Covers box p) (hq : Covers box q)
    (hlat : r.lat ∈ Set.uIcc p.lat q.lat) (hlon : r.lon ∈ Set.uIcc p.lon q.lon) : Covers box r := by
  obtain ⟨e, rfl, hp⟩ := hp
  obtain ⟨_, he, hq⟩ := hq
  cases he
  obtain ⟨hplat, hplon⟩ := contains_iff_mem_Icc.1 hp
  obtain ⟨hqlat, hqlon⟩ := contains_iff_mem_Icc.1 hq
  exact ⟨e, rfl, contains_iff_mem_Icc.2 ⟨Set.uIcc_subset_Icc hplat hqlat hlat, Set.uIcc_subset_Icc hplon hqlon hlon⟩⟩

end Extent
end VesselTraffic
