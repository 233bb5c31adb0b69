import VesselTraffic.Proofs.Geo.Growth
import VesselTraffic.Proofs.Number.DoubleSums

/-!
# Boxes whose sides stand for the same numbers

The order in which positions came decides which of two coordinates for one number became a side of a box. Nobody who only compares
positions with the box can tell (`SameNumbers.contains_eq`). Whole coordinates on the earth are few, so doubles add, subtract and halve
them exactly, and what is shown of the box is the same up to the sign of a zero: its sides (`SameNumber.nearest_alike`) and its middle
(`SameNumber.middle_alike`). Its width and its height are the same (`Spans.width_eq`), because opposite sides for one number are one
coordinate (`spanned_foldl_observe`).
-/

namespace VesselTraffic

open Float.Model Double

namespace DoubleParts

/-- A double that is a number is at most one that is none if that is the infinite one, and at least if that is the negative infinite
one. -/
theorem le_iff_of_not_number {x z : Float} {p : ℚ} (hx : (ofDouble x).value? = some p) (hz : (ofDouble z).value? = none) :
    (x ≤ z ↔ ofDouble z = .infinite false) ∧ (z ≤ x ↔ ofDouble z = .infinite true) := by
  have hle : ∀ a b : Float, a ≤ b ↔ (a.toModel.unpack.compare b.toModel.unpack).any (·.isLE) = true := fun _ _ => decide_eq_true_iff
  rw [hle, hle, ofDouble_eq]
  rw [ofDouble_eq] at hx hz
  generalize x.toModel.unpack = u at hx ⊢
  generalize z.toModel.unpack = v at hz ⊢
  cases v with
  | zero s => simp [ofUnpacked, value?] at hz
  | finite s m e hm => simp [ofUnpacked, value?] at hz
  | notANumber => cases u <;> simp [UnpackedFloat.compare, ofUnpacked]
  | infinity s =>
    cases u with
    | notANumber => simp [ofUnpacked, value?] at hx
    | infinity t => simp [ofUnpacked, value?] at hx
    | zero t => cases s <;> simp [UnpackedFloat.compare, ofUnpacked, isNegative]
    | finite t m e hm => cases s <;> simp [UnpackedFloat.compare, ofUnpacked, isNegative]

end DoubleParts

namespace Quantity

open DoubleParts

variable {a a' b b' : Quantity}

/-! ## Comparisons -/

/-- A quantity that stands for a number is compared with a double that is none as any other number is. -/
theorem le_real_iff_of_not_number {z : Float} {p : ℚ} (ha : a.value? = some p) (hz : (ofDouble z).value? = none) :
    (a.le (.real z) = true ↔ ofDouble z = .infinite false) ∧ ((real z).le a = true ↔ ofDouble z = .infinite true) := by
  cases a with
  | real x =>
    have hcompare := le_iff_of_not_number (x := x) ha hz
    rw [le, le, decide_eq_true_iff, decide_eq_true_iff]
    exact hcompare
  | whole n =>
    simp only [le, compareWhole]
    cases h : ofDouble z with
    | nan => simp
    | infinite negative => cases negative <;> simp
    | finite negative m e =>
      rw [h] at hz
      cases hz

namespace SameNumber

/-- A quantity is compared in the same way with quantities that stand for the same number. -/
theorem le_eq (h : SameNumber a a') (q : Quantity) :
    Navigation.le a q = Navigation.le a' q ∧ Navigation.le q a = Navigation.le q a' := by
  obtain ⟨p, ha, ha'⟩ := h
  cases hq : q.value? with
  | some r =>
    exact ⟨Bool.eq_iff_iff.2 ((le_iff ha hq).trans (le_iff ha' hq).symm), Bool.eq_iff_iff.2 ((le_iff hq ha).trans (le_iff hq ha').symm)⟩
  | none =>
    cases q with
    | whole n => cases hq
    | real z =>
      have hcompare := le_real_iff_of_not_number ha hq
      have hcompare' := le_real_iff_of_not_number ha' hq
      exact ⟨Bool.eq_iff_iff.2 (hcompare.1.trans hcompare'.1.symm), Bool.eq_iff_iff.2 (hcompare.2.trans hcompare'.2.symm)⟩

end SameNumber

/-! ## Doubles -/

/-- A quantity that doubles add up exactly, if it is an integer. -/
def IsSmall : Quantity → Prop
  | whole n => n.natAbs < 2 ^ 52
  | real _ => True

/-- What lies between small integers is small. -/
theorem isSmall_of_bounds {m n : ℤ} (hm : m.natAbs < 2 ^ 52) (hn : n.natAbs < 2 ^ 52) (hlow : (whole m).le a = true)
    (hhigh : a.le (.whole n) = true) : a.IsSmall := by
  cases a with
  | real x => trivial
  | whole k =>
    have hle : m ≤ k := of_decide_eq_true hlow
    have hle' : k ≤ n := of_decide_eq_true hhigh
    exact show k.natAbs < 2 ^ 52 by omega

/-- The double nearest to an integer of at most 53 binary digits stands for that integer. -/
theorem value?_nearest_whole {n : ℤ} (hn : n.natAbs < 2 ^ 53) : (ofDouble (whole n).nearest).value? = some (n : ℚ) := by
  obtain ⟨x, hx, hvalue⟩ := exists_ofRatio? hn (Nat.zero_le 1)
  have hone : pow2 0 = 1 := rfl
  rw [hone] at hx
  rw [pow_zero, div_one] at hvalue
  rw [nearest, hx, Option.getD_some, hvalue]

/-- The nearest double to a quantity stands for the number that the quantity stands for. -/
theorem value?_nearest (ha : a.IsSmall) : (ofDouble a.nearest).value? = a.value? := by
  cases a with
  | real x => rfl
  | whole n =>
    have hn : n.natAbs < 2 ^ 52 := ha
    exact value?_nearest_whole (by omega)

/-- The double nearest to a difference that is not zero is the difference of the nearest doubles. -/
theorem nearest_sub_eq {p q : ℚ} (ha : a.IsSmall) (hb : b.IsSmall) (hp : a.value? = some p) (hq : b.value? = some q) (hne : p ≠ q) :
    (a.sub b).nearest = a.nearest - b.nearest := by
  cases a with
  | real x => rfl
  | whole m =>
    cases b with
    | real y => rfl
    | whole n =>
      have hm : m.natAbs < 2 ^ 52 := ha
      have hn : n.natAbs < 2 ^ 52 := hb
      have hdiff : ((m - n : ℤ) : ℚ) ≠ 0 := by
        intro hzero
        refine hne ?_
        rw [← Option.some.inj hp, ← Option.some.inj hq, ← sub_eq_zero, ← Int.cast_sub, hzero]
      have hsub := value?_sub (value?_nearest ha) (value?_nearest hb) (by omega) (by omega) (by omega)
      have hvalue : (ofDouble (whole (m - n)).nearest).value? = some ((m - n : ℤ) : ℚ) := value?_nearest_whole (by omega)
      exact eq_of_value? hvalue hsub hdiff

/-- The double nearest to what a quantity is more than itself is the positive zero. -/
theorem nearest_sub_self (ha : a.IsNumber) : (a.sub a).nearest = ofMagnitude false 0 := by
  obtain ⟨q, hq⟩ := ha
  cases a with
  | real x => exact sub_self_eq hq
  | whole n =>
    rw [sub, Int.sub_self]
    rfl

/-- The middle of two coordinates is half of the sum of the nearest doubles. -/
theorem middle_alike_half (ha : a.IsSmall) (hb : b.IsSmall) : Alike (Sphere.middle a b) ((a.nearest + b.nearest) / 2) := by
  cases a with
  | real x => exact .refl _
  | whole m =>
    cases b with
    | real y => exact .refl _
    | whole n =>
      have hm : m.natAbs < 2 ^ 52 := ha
      have hn : n.natAbs < 2 ^ 52 := hb
      have hsum : (m + n).natAbs < 2 ^ 53 := by omega
      have hhalf := value?_half (value?_add (value?_nearest ha) (value?_nearest hb) (by omega) (by omega) hsum) hsum
      obtain ⟨x, hx, hvalue⟩ := exists_ofRatio? hsum (Nat.le_refl 1)
      have htwo : pow2 1 = 2 := rfl
      rw [htwo] at hx
      rw [pow_one] at hvalue
      rw [Sphere.middle, add]
      simp only [hx, Option.getD_some]
      exact alike_of_value? hvalue hhalf

namespace SameNumber

/-- The nearest doubles to quantities for the same number are alike. -/
theorem nearest_alike (h : SameNumber a a') (ha : a.IsSmall) (ha' : a'.IsSmall) : Alike a.nearest a'.nearest := by
  obtain ⟨q, hq, hq'⟩ := h
  exact alike_of_value? ((value?_nearest ha).trans hq) ((value?_nearest ha').trans hq')

/-- Middles of quantities for the same numbers are alike. -/
theorem middle_alike (h : SameNumber a a') (h' : SameNumber b b') (ha : a.IsSmall) (ha' : a'.IsSmall) (hb : b.IsSmall)
    (hb' : b'.IsSmall) : Alike (Sphere.middle a b) (Sphere.middle a' b') :=
  (middle_alike_half ha hb).trans
    (((h.nearest_alike ha ha').add (h'.nearest_alike hb hb')).half.trans (middle_alike_half ha' hb').symm)

end SameNumber

/-! ## Spans -/

/-- The first of two quantities is at most the second, and it is the second if both stand for the same number. -/
def Spans (a b : Quantity) : Prop := ∃ p q, a.value? = some p ∧ b.value? = some q ∧ p ≤ q ∧ (p = q → a = b)

namespace Spans

/-- A number spans itself. -/
theorem self (ha : a.IsNumber) : Spans a a := by
  obtain ⟨p, hp⟩ := ha
  exact ⟨p, p, hp, hp, le_refl p, fun _ => rfl⟩

/-- A span that is widened to a number is a span. -/
theorem widen (h : Spans a b) {c : Quantity} (hc : c.IsNumber) : Spans (Extent.lower a c) (Extent.upper b c) := by
  obtain ⟨p, q, hp, hq, hle, heq⟩ := h
  obtain ⟨r, hr⟩ := hc
  have hbelow : Navigation.lt c a = true ↔ r < p := lt_iff hr hp
  have habove : Navigation.lt b c = true ↔ q < r := lt_iff hq hr
  unfold Extent.lower Extent.upper
  rw [if_congr hbelow rfl rfl, if_congr habove rfl rfl]
  by_cases hrp : r < p
  · have hrq : r < q := lt_of_lt_of_le hrp hle
    rw [if_pos hrp, if_neg (not_lt.2 hrq.le)]
    exact ⟨r, q, hr, hq, hrq.le, fun h => absurd h hrq.ne⟩
  · rw [if_neg hrp]
    by_cases hqr : q < r
    · have hpr : p < r := lt_of_le_of_lt hle hqr
      rw [if_pos hqr]
      exact ⟨p, r, hp, hr, hpr.le, fun h => absurd h hpr.ne⟩
    · rw [if_neg hqr]
      exact ⟨p, q, hp, hq, hle, heq⟩

/-- Spans of the same numbers are equally wide, whatever zeros they end in. -/
theorem width_eq (h : Spans a b) (h' : Spans a' b') (ha : SameNumber a a') (hb : SameNumber b b') (hsa : a.IsSmall) (hsa' : a'.IsSmall)
    (hsb : b.IsSmall) (hsb' : b'.IsSmall) : (b.sub a).nearest = (b'.sub a').nearest := by
  obtain ⟨p, q, hp, hq, -, heq⟩ := h
  obtain ⟨p', q', hp', hq', -, heq'⟩ := h'
  obtain rfl : p = p' := by
    obtain ⟨r, hr, hr'⟩ := ha
    exact Option.some.inj ((hp.symm.trans hr).trans (hr'.symm.trans hp'))
  obtain rfl : q = q' := by
    obtain ⟨r, hr, hr'⟩ := hb
    exact Option.some.inj ((hq.symm.trans hr).trans (hr'.symm.trans hq'))
  by_cases hpq : p = q
  · rw [heq hpq, heq' hpq, nearest_sub_self ⟨q, hq⟩, nearest_sub_self ⟨q, hq'⟩]
  · rw [nearest_sub_eq hsb hsa hq hp (Ne.symm hpq), nearest_sub_eq hsb' hsa' hq' hp' (Ne.symm hpq)]
    refine (hb.nearest_alike hsb hsb').sub_eq (ha.nearest_alike hsa hsa') fun hzero => hpq ?_
    have hpzero := (value?_nearest hsa).symm.trans hzero.2
    have hqzero := (value?_nearest hsb).symm.trans hzero.1
    rw [hp] at hpzero
    rw [hq] at hqzero
    rw [Option.some.inj hpzero, Option.some.inj hqzero]

end Spans

end Quantity

/-- The coordinates of a valid position are small. -/
theorem Message.small_of_validReport? {m : Message Quantity} {r : PositionReport Quantity} (h : m.validReport? = some r) :
    r.position.Among Quantity.IsSmall := by
  obtain ⟨-, hv⟩ := validReport?_eq_some_iff.1 h
  simp only [PositionReport.isValid, Bool.and_eq_true] at hv
  obtain ⟨⟨-, hlat, hlat'⟩, hlon, hlon'⟩ := hv
  exact ⟨Quantity.isSmall_of_bounds (by decide) (by decide) hlat hlat', Quantity.isSmall_of_bounds (by decide) (by decide) hlon hlon'⟩

/-- Boxes whose sides stand for the same numbers contain the same positions. -/
theorem Extent.SameNumbers.contains_eq {e e' : Extent Quantity} (h : e.SameNumbers e') (p : Position Quantity) :
    e.contains p = e'.contains p := by
  rw [Extent.contains, Extent.contains, (h.latMin.le_eq p.lat).1, (h.latMax.le_eq p.lat).2, (h.lonMin.le_eq p.lon).1,
    (h.lonMax.le_eq p.lon).2]

namespace Extent

/-- A box of small coordinates whose opposite sides are the same if they stand for the same number. -/
structure Spanned (e : Extent Quantity) : Prop where
  small : e.Among Quantity.IsSmall
  lat : Quantity.Spans e.latMin e.latMax
  lon : Quantity.Spans e.lonMin e.lonMax

/-- A box that grows to a position is spanned if it was. -/
theorem Spanned.grow {e : Extent Quantity} (h : e.Spanned) {p : Position Quantity} (hp : p.Among Quantity.IsNumber)
    (hsmall : p.Among Quantity.IsSmall) : (e.grow p).Spanned :=
  ⟨h.small.grow hsmall, h.lat.widen hp.lat, h.lon.widen hp.lon⟩

/-- The box of positions is spanned by them. -/
theorem spanned_foldl_observe {ps : List (Position Quantity)} {box : Option (Extent Quantity)} (hbox : ∀ e, box = some e → e.Spanned)
    (hps : ∀ p ∈ ps, p.Among Quantity.IsNumber ∧ p.Among Quantity.IsSmall) : ∀ e, ps.foldl observe box = some e → e.Spanned := by
  induction ps generalizing box with
  | nil => exact hbox
  | cons p rest ih =>
    obtain ⟨⟨hp, hsmall⟩, hrest⟩ := List.forall_mem_cons.1 hps
    refine ih (fun e he => ?_) hrest
    cases box with
    | none =>
      cases he
      exact ⟨⟨hsmall.lat, hsmall.lat, hsmall.lon, hsmall.lon⟩, .self hp.lat, .self hp.lon⟩
    | some b =>
      cases he
      exact (hbox b rfl).grow hp hsmall

end Extent
end VesselTraffic
