import VesselTraffic.Geo.Sphere
import VesselTraffic.Message.Basic
import VesselTraffic.Proofs.Number.QuantityOrder

/-!
# Extents as exact boxes

Each side of an extent is the coordinate chosen last on the way, and the number that it stands for is the least or the greatest of
all; so the extent of positions is their hull (`foldl_observe_isHull`). That number does not depend on the order of the positions
(`same_foldl_observe`); which of two coordinates that stand for the same number is kept does, so extents are compared as numbers.
-/

namespace VesselTraffic

namespace Quantity

/-- Two quantities that stand for the same number. -/
def SameNumber (a b : Quantity) : Prop := ∃ q, a.value? = some q ∧ b.value? = some q

/-- A quantity that stands for a number. -/
def IsNumber (a : Quantity) : Prop := ∃ q, a.value? = some q

end Quantity

namespace PositionReport

/-- The coordinates of a valid position are numbers. -/
theorem isNumber_of_isValid {r : PositionReport Quantity} (h : r.isValid = true) :
    r.position.lat.IsNumber ∧ r.position.lon.IsNumber := by
  simp only [isValid, Bool.and_eq_true] at h
  obtain ⟨⟨-, hlat, hlat'⟩, hlon, hlon'⟩ := h
  obtain ⟨q, hq, -⟩ := Quantity.exists_value_of_bounds hlat hlat'
  obtain ⟨q', hq', -⟩ := Quantity.exists_value_of_bounds hlon hlon'
  exact ⟨⟨q, hq⟩, ⟨q', hq'⟩⟩

end PositionReport

namespace Message

/-- A message has a valid position report exactly if it is that report and valid. -/
theorem validReport?_eq_some_iff {α : Type} [Navigation α] {m : Message α} {r : PositionReport α} :
    m.validReport? = some r ↔ m = .position r ∧ r.isValid = true := by
  cases m with
  | static s => exact iff_of_false nofun fun h => nomatch h.1
  | other o => exact iff_of_false nofun fun h => nomatch h.1
  | position r' =>
    rw [validReport?, Option.ite_none_right_eq_some, position.injEq]
    constructor
    · rintro ⟨hv, h⟩
      cases h
      exact ⟨rfl, hv⟩
    · rintro ⟨rfl, hv⟩
      exact ⟨hv, rfl⟩

/-- The coordinates of the valid position report of a message are numbers. -/
theorem isNumber_of_validReport? {m : Message Quantity} {r : PositionReport Quantity} (h : m.validReport? = some r) :
    r.position.lat.IsNumber ∧ r.position.lon.IsNumber :=
  PositionReport.isNumber_of_isValid (validReport?_eq_some_iff.1 h).2

end Message

namespace Extent

open Quantity

/-- Two boxes whose sides stand for the same numbers. -/
structure SameNumbers (e e' : Extent Quantity) : Prop where
  latMin : SameNumber e.latMin e'.latMin
  latMax : SameNumber e.latMax e'.latMax
  lonMin : SameNumber e.lonMin e'.lonMin
  lonMax : SameNumber e.lonMax e'.lonMax

/-- A number that is that of one of the quantities and comes before those of all in an order. -/
structure Extreme (r : ℚ → ℚ → Prop) (s : ℚ) (l : List Quantity) : Prop where
  bound : ∀ x ∈ l, ∀ q, x.value? = some q → r s q
  attained : ∃ x ∈ l, x.value? = some s

/-- A choice of one of two quantities whose number comes before the other one's. -/
structure Chooses (r : ℚ → ℚ → Prop) (choose : Quantity → Quantity → Quantity) : Prop where
  refl : ∀ q, r q q
  trans : ∀ p q s, r p q → r q s → r p s
  antisymm : ∀ p q, r p q → r q p → p = q
  either : ∀ a b, choose a b = a ∨ choose a b = b
  before : ∀ a b p q s, a.value? = some p → b.value? = some q → (choose a b).value? = some s → r s p ∧ r s q

/-- Taking the second of two quantities if its number is strictly before the first one's, and the first otherwise, chooses in a total
order. -/
theorem Chooses.of_strict {r : ℚ → ℚ → Prop} (hrefl : ∀ q, r q q) (htrans : ∀ p q s, r p q → r q s → r p s)
    (hantisymm : ∀ p q, r p q → r q p → p = q) (htotal : ∀ p q, r p q ∨ r q p) {choose : Quantity → Quantity → Quantity}
    {strict : Quantity → Quantity → Bool} (hchoose : ∀ a b, choose a b = if strict b a then b else a)
    (hstrict : ∀ a b p q, a.value? = some p → b.value? = some q → (strict b a = true ↔ ¬r p q)) : Chooses r choose where
  refl := hrefl
  trans := htrans
  antisymm := hantisymm
  either := by
    intro a b
    rw [hchoose]
    split
    · exact Or.inr rfl
    · exact Or.inl rfl
  before := by
    intro a b p q s ha hb hs
    rw [hchoose] at hs
    by_cases h : strict b a = true
    · rw [if_pos h, hb] at hs
      cases hs
      exact ⟨(htotal p q).resolve_left ((hstrict a b p q ha hb).1 h), hrefl q⟩
    · rw [if_neg h, ha] at hs
      cases hs
      exact ⟨hrefl p, not_not.1 fun hn => h ((hstrict a b p q ha hb).2 hn)⟩

/-- The smaller number is chosen on the lower sides. -/
theorem chooses_lower : Chooses (· ≤ ·) lower := by
  refine Chooses.of_strict le_refl (fun _ _ _ => le_trans) (fun _ _ => le_antisymm) le_total (fun _ _ => rfl) ?_
  intro a b p q ha hb
  rw [not_le]
  exact Quantity.lt_iff hb ha

/-- The greater number is chosen on the upper sides. -/
theorem chooses_upper : Chooses (· ≥ ·) upper := by
  have hchoose : ∀ a b : Quantity, upper a b = if (fun b a => Navigation.lt a b) b a then b else a := fun _ _ => rfl
  refine Chooses.of_strict (r := (· ≥ ·)) le_refl (fun _ _ _ => ge_trans) (fun _ _ h h' => le_antisymm h' h)
    (fun p q => le_total q p) hchoose ?_
  intro a b p q ha hb
  rw [ge_iff_le, not_le]
  exact Quantity.lt_iff ha hb

/-- A choice of two numbers is a number. -/
theorem Chooses.isNumber {r : ℚ → ℚ → Prop} {choose : Quantity → Quantity → Quantity} (hc : Chooses r choose)
    {a b : Quantity} (ha : a.IsNumber) (hb : b.IsNumber) : (choose a b).IsNumber := by
  rcases hc.either a b with e | e
  · rw [e]
    exact ha
  · rw [e]
    exact hb

/-- What is extreme once two numbers were replaced by the chosen one was extreme before. -/
theorem Chooses.extreme_cons_cons {r : ℚ → ℚ → Prop} {choose : Quantity → Quantity → Quantity} (hc : Chooses r choose)
    {a b : Quantity} (ha : a.IsNumber) (hb : b.IsNumber) {s : ℚ} {l : List Quantity} (h : Extreme r s (choose a b :: l)) :
    Extreme r s (a :: b :: l) := by
  obtain ⟨hbound, x, hx, hxs⟩ := h
  refine ⟨?_, ?_⟩
  · -- The chosen one comes before both, and the extreme before it.
    obtain ⟨p, hp⟩ := ha
    obtain ⟨q, hq⟩ := hb
    obtain ⟨t, ht⟩ := hc.isNumber ⟨p, hp⟩ ⟨q, hq⟩
    have hst := hbound _ List.mem_cons_self t ht
    obtain ⟨htp, htq⟩ := hc.before a b p q t hp hq ht
    intro y hy u hu
    rcases List.mem_cons.1 hy with rfl | hy
    · cases hp.symm.trans hu
      exact hc.trans s t p hst htp
    · rcases List.mem_cons.1 hy with rfl | hy
      · cases hq.symm.trans hu
        exact hc.trans s t q hst htq
      · exact hbound y (List.mem_cons_of_mem _ hy) u hu
  · rcases List.mem_cons.1 hx with rfl | hx
    · rcases hc.either a b with e | e
      · exact ⟨a, List.mem_cons_self, e ▸ hxs⟩
      · exact ⟨b, List.mem_cons_of_mem a List.mem_cons_self, e ▸ hxs⟩
    · exact ⟨x, List.mem_cons_of_mem a (List.mem_cons_of_mem b hx), hxs⟩

/-- Choosing among numbers one after the other ends with an extreme one. -/
theorem Chooses.extreme_foldl {r : ℚ → ℚ → Prop} {choose : Quantity → Quantity → Quantity} (hc : Chooses r choose)
    {a : Quantity} {l : List Quantity} (h : ∀ x ∈ a :: l, x.IsNumber) :
    ∃ s, (l.foldl choose a).value? = some s ∧ Extreme r s (a :: l) := by
  induction l generalizing a with
  | nil =>
    obtain ⟨p, hp⟩ := h a List.mem_cons_self
    refine ⟨p, hp, ⟨?_, ⟨a, List.mem_cons_self, hp⟩⟩⟩
    intro x hx q hq
    rw [List.mem_singleton.1 hx, hp] at hq
    cases hq
    exact hc.refl p
  | cons b rest ih =>
    obtain ⟨ha, htail⟩ := List.forall_mem_cons.1 h
    obtain ⟨hb, hrest⟩ := List.forall_mem_cons.1 htail
    obtain ⟨s, hs, hextreme⟩ := ih (List.forall_mem_cons.2 ⟨hc.isNumber ha hb, hrest⟩)
    exact ⟨s, hs, hc.extreme_cons_cons ha hb hextreme⟩

/-- Choosing among numbers in another order ends with the same number. -/
theorem Chooses.same_foldl {r : ℚ → ℚ → Prop} {choose : Quantity → Quantity → Quantity} (hc : Chooses r choose)
    {a a' : Quantity} {l l' : List Quantity} (hp : (a :: l).Perm (a' :: l')) (h : ∀ x ∈ a :: l, x.IsNumber) :
    SameNumber (l.foldl choose a) (l'.foldl choose a') := by
  obtain ⟨s, hs, hbound, x, hx, hxs⟩ := hc.extreme_foldl h
  obtain ⟨s', hs', hbound', x', hx', hxs'⟩ := hc.extreme_foldl fun y hy => h y (hp.mem_iff.2 hy)
  have hle := hbound x' (hp.mem_iff.2 hx') s' hxs'
  have hge := hbound' x (hp.mem_iff.1 hx) s hxs
  cases hc.antisymm s s' hle hge
  exact ⟨s, hs, hs'⟩

/-- An extent that is grown by positions has each side chosen among the coordinates. -/
theorem foldl_observe_some (e : Extent Quantity) (ps : List (Position Quantity)) :
    ps.foldl observe (some e) = some
      ⟨(ps.map Position.lat).foldl lower e.latMin, (ps.map Position.lat).foldl upper e.latMax,
        (ps.map Position.lon).foldl lower e.lonMin, (ps.map Position.lon).foldl upper e.lonMax⟩ := by
  induction ps generalizing e with
  | nil => rfl
  | cons p rest ih => exact ih (e.grow p)

/-- Positions in another order give the same extent as numbers. -/
theorem same_foldl_observe {ps ps' : List (Position Quantity)} (hp : ps.Perm ps')
    (h : ∀ p ∈ ps, p.lat.IsNumber ∧ p.lon.IsNumber) :
    Option.Rel SameNumbers (ps.foldl observe none) (ps'.foldl observe none) := by
  cases ps with
  | nil =>
    cases hp.nil_eq
    exact Option.Rel.none
  | cons p rest =>
    cases ps' with
    | nil => exact absurd hp.eq_nil (List.cons_ne_nil _ _)
    | cons p' rest' =>
      have hlat : ∀ x ∈ (p :: rest).map Position.lat, x.IsNumber := by
        intro x hx
        obtain ⟨y, hy, rfl⟩ := List.mem_map.1 hx
        exact (h y hy).1
      have hlon : ∀ x ∈ (p :: rest).map Position.lon, x.IsNumber := by
        intro x hx
        obtain ⟨y, hy, rfl⟩ := List.mem_map.1 hx
        exact (h y hy).2
      have hfold : ∀ (q : Position Quantity) (qs : List (Position Quantity)),
          (q :: qs).foldl observe none = qs.foldl observe (some (around q)) := fun _ _ => rfl
      rw [hfold, hfold, foldl_observe_some, foldl_observe_some]
      exact Option.Rel.some
        { latMin := chooses_lower.same_foldl (hp.map Position.lat) hlat
          latMax := chooses_upper.same_foldl (hp.map Position.lat) hlat
          lonMin := chooses_lower.same_foldl (hp.map Position.lon) hlon
          lonMax := chooses_upper.same_foldl (hp.map Position.lon) hlon }

/-! ## Hulls -/

/-- A box that lies within another one: none of its sides is beyond the other one's. -/
structure Within (e box : Extent Quantity) : Prop where
  latMin : Navigation.le box.latMin e.latMin = true
  latMax : Navigation.le e.latMax box.latMax = true
  lonMin : Navigation.le box.lonMin e.lonMin = true
  lonMax : Navigation.le e.lonMax box.lonMax = true

/-- The hull of positions: a box that contains them all, each side of which is a coordinate of one of them, and that lies within every
box that contains them all. -/
structure IsHull (ps : List (Position Quantity)) (e : Extent Quantity) : Prop where
  contains : ∀ p ∈ ps, e.contains p = true
  latMin : ∃ p ∈ ps, p.lat = e.latMin
  latMax : ∃ p ∈ ps, p.lat = e.latMax
  lonMin : ∃ p ∈ ps, p.lon = e.lonMin
  lonMax : ∃ p ∈ ps, p.lon = e.lonMax
  least : ∀ box : Extent Quantity, (∀ p ∈ ps, box.contains p = true) → e.Within box

/-- A box contains a position exactly if both coordinates are between its sides. -/
theorem contains_iff {α : Type} [Navigation α] {e : Extent α} {p : Position α} :
    e.contains p = true ↔ (Navigation.le e.latMin p.lat = true ∧ Navigation.le p.lat e.latMax = true) ∧
      Navigation.le e.lonMin p.lon = true ∧ Navigation.le p.lon e.lonMax = true := by
  simp only [Extent.contains, Bool.and_eq_true]

/-- A box whose sides are coordinates of positions that it contains is their hull. -/
theorem IsHull.of_attained {ps : List (Position Quantity)} {e : Extent Quantity} (hcontains : ∀ p ∈ ps, e.contains p = true)
    (hlatMin : ∃ p ∈ ps, p.lat = e.latMin) (hlatMax : ∃ p ∈ ps, p.lat = e.latMax)
    (hlonMin : ∃ p ∈ ps, p.lon = e.lonMin) (hlonMax : ∃ p ∈ ps, p.lon = e.lonMax) : IsHull ps e := by
  refine ⟨hcontains, hlatMin, hlatMax, hlonMin, hlonMax, fun box hbox => ?_⟩
  obtain ⟨p₁, h₁, e₁⟩ := hlatMin
  obtain ⟨p₂, h₂, e₂⟩ := hlatMax
  obtain ⟨p₃, h₃, e₃⟩ := hlonMin
  obtain ⟨p₄, h₄, e₄⟩ := hlonMax
  exact
    { latMin := e₁ ▸ (contains_iff.1 (hbox p₁ h₁)).1.1
      latMax := e₂ ▸ (contains_iff.1 (hbox p₂ h₂)).1.2
      lonMin := e₃ ▸ (contains_iff.1 (hbox p₃ h₃)).2.1
      lonMax := e₄ ▸ (contains_iff.1 (hbox p₄ h₄)).2.2 }

/-- The hull of positions lies within the hull of more positions. -/
theorem IsHull.within {ps qs : List (Position Quantity)} {e e' : Extent Quantity} (h : IsHull ps e) (h' : IsHull qs e')
    (hsub : ps ⊆ qs) : e.Within e' :=
  h.least e' fun p hp => h'.contains p (hsub hp)

/-- Choosing among quantities one after the other ends with one of them. -/
theorem Chooses.foldl_mem {r : ℚ → ℚ → Prop} {choose : Quantity → Quantity → Quantity} (hc : Chooses r choose) (a : Quantity)
    (l : List Quantity) : l.foldl choose a ∈ a :: l := by
  induction l generalizing a with
  | nil => exact List.mem_cons_self
  | cons b rest ih =>
    rw [List.foldl_cons]
    rcases List.mem_cons.1 (ih (choose a b)) with h | h
    · rcases hc.either a b with e | e
      · rw [h, e]
        exact List.mem_cons_self
      · rw [h, e]
        exact List.mem_cons_of_mem a List.mem_cons_self
    · exact List.mem_cons_of_mem a (List.mem_cons_of_mem b h)

/-- Choosing among the coordinates of positions, starting with that of the first one, ends with the coordinate of one of them. -/
theorem Chooses.foldl_map_mem {r : ℚ → ℚ → Prop} {choose : Quantity → Quantity → Quantity} (hc : Chooses r choose)
    (coordinate : Position Quantity → Quantity) (p : Position Quantity) (rest : List (Position Quantity)) :
    ∃ q ∈ p :: rest, coordinate q = (rest.map coordinate).foldl choose (coordinate p) :=
  List.mem_map.1 (hc.foldl_mem (coordinate p) (rest.map coordinate))

/-- Choosing among the coordinates of positions ends with one that comes before all of them. -/
theorem Chooses.foldl_map_before {r : ℚ → ℚ → Prop} {choose : Quantity → Quantity → Quantity} (hc : Chooses r choose)
    (coordinate : Position Quantity → Quantity) {p : Position Quantity} {rest : List (Position Quantity)}
    (h : ∀ q ∈ p :: rest, (coordinate q).IsNumber) {q : Position Quantity} (hq : q ∈ p :: rest) :
    ∃ s t, ((rest.map coordinate).foldl choose (coordinate p)).value? = some s ∧ (coordinate q).value? = some t ∧ r s t := by
  obtain ⟨s, hs, hextreme⟩ := hc.extreme_foldl (a := coordinate p) (l := rest.map coordinate) (List.forall_mem_map.2 h)
  obtain ⟨t, ht⟩ := h q hq
  exact ⟨s, t, hs, ht, hextreme.bound _ (List.mem_map_of_mem hq) t ht⟩

/-- There is an extent exactly if there were positions, and then it is their hull. -/
theorem foldl_observe_isHull {ps : List (Position Quantity)} (h : ∀ p ∈ ps, p.lat.IsNumber ∧ p.lon.IsNumber) :
    (ps.foldl observe none = none ↔ ps = []) ∧ ∀ e, ps.foldl observe none = some e → IsHull ps e := by
  cases ps with
  | nil => exact ⟨by simp, fun e he => by cases he⟩
  | cons p rest =>
    have hfold : (p :: rest).foldl observe none = rest.foldl observe (some (around p)) := rfl
    rw [hfold, foldl_observe_some]
    refine ⟨by simp, ?_⟩
    rintro e ⟨⟩
    refine IsHull.of_attained (fun q hq => contains_iff.2 ?_) (chooses_lower.foldl_map_mem Position.lat p rest)
      (chooses_upper.foldl_map_mem Position.lat p rest) (chooses_lower.foldl_map_mem Position.lon p rest)
      (chooses_upper.foldl_map_mem Position.lon p rest)
    obtain ⟨s₁, t₁, hs₁, ht₁, h₁⟩ := chooses_lower.foldl_map_before Position.lat (fun q hq => (h q hq).1) hq
    obtain ⟨s₂, t₂, hs₂, ht₂, h₂⟩ := chooses_upper.foldl_map_before Position.lat (fun q hq => (h q hq).1) hq
    obtain ⟨s₃, t₃, hs₃, ht₃, h₃⟩ := chooses_lower.foldl_map_before Position.lon (fun q hq => (h q hq).2) hq
    obtain ⟨s₄, t₄, hs₄, ht₄, h₄⟩ := chooses_upper.foldl_map_before Position.lon (fun q hq => (h q hq).2) hq
    exact ⟨⟨(Quantity.le_iff hs₁ ht₁).2 h₁, (Quantity.le_iff ht₂ hs₂).2 h₂⟩, (Quantity.le_iff hs₃ ht₃).2 h₃,
      (Quantity.le_iff ht₄ hs₄).2 h₄⟩

end Extent
end VesselTraffic
