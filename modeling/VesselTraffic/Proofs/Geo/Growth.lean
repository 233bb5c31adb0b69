import VesselTraffic.Proofs.Geo.Extents

/-!
# Boxes that grow

Where coordinates are compared as in a linear order, a box that grows to a position contains it and all that it contained before, and a
box that contains a position already does not grow (`Extent.grow_eq_self_iff`). So positions that come again leave a box as it is
(`Extent.foldl_observe_again`).
-/

namespace VesselTraffic

variable {α : Type}

/-- Comparisons that are those of a linear order on some members: `le` is total and transitive on them, and `strict` is its strict part.
-/
structure OrderedOn (N : α → Prop) (le strict : α → α → Bool) : Prop where
  total : ∀ a b, N a → N b → le a b = true ∨ le b a = true
  trans : ∀ a b c, N a → N b → N c → le a b = true → le b c = true → le a c = true
  strict_iff : ∀ a b, N a → N b → (strict b a = true ↔ ¬le a b = true)

namespace OrderedOn

variable {N : α → Prop} {le strict : α → α → Bool}

/-- A linear order turned around is a linear order. -/
theorem flip (h : OrderedOn N le strict) : OrderedOn N (fun a b => le b a) fun a b => strict b a where
  total a b ha hb := h.total b a hb ha
  trans a b c ha hb hc hab hbc := h.trans c b a hc hb ha hbc hab
  strict_iff a b ha hb := h.strict_iff b a hb ha

/-- Every member is at most itself. -/
theorem refl (h : OrderedOn N le strict) {a : α} (ha : N a) : le a a = true := (h.total a a ha ha).elim id id

/-- The second of two members if it is strictly before the first, and the first otherwise. -/
def pick (strict : α → α → Bool) (a b : α) : α := if strict b a then b else a

/-- The picked one of two members is a member. -/
theorem pick_mem (strict : α → α → Bool) {a b : α} (ha : N a) (hb : N b) : N (pick strict a b) := by
  unfold pick
  split
  · exact hb
  · exact ha

/-- The picked one of two members is at most the first. -/
theorem pick_le_left (h : OrderedOn N le strict) {a b : α} (ha : N a) (hb : N b) : le (pick strict a b) a = true := by
  unfold pick
  split
  · rename_i hs
    exact (h.total a b ha hb).resolve_left ((h.strict_iff a b ha hb).1 hs)
  · exact h.refl ha

/-- The picked one of two members is at most the second. -/
theorem pick_le_right (h : OrderedOn N le strict) {a b : α} (ha : N a) (hb : N b) : le (pick strict a b) b = true := by
  unfold pick
  split
  · exact h.refl hb
  · rename_i hs
    exact not_not.1 fun hle => hs ((h.strict_iff a b ha hb).2 hle)

/-- The first of two members is picked exactly if it is at most the second. -/
theorem pick_eq_left_iff (h : OrderedOn N le strict) {a b : α} (ha : N a) (hb : N b) : pick strict a b = a ↔ le a b = true := by
  constructor
  · intro heq
    exact heq ▸ h.pick_le_right ha hb
  · intro hle
    exact if_neg fun hs => (h.strict_iff a b ha hb).1 hs hle

end OrderedOn

/-- Exact numbers are compared as in a linear order. -/
theorem Quantity.orderedOn : OrderedOn Quantity.IsNumber Quantity.le Quantity.lt where
  total := by
    rintro a b ⟨p, hp⟩ ⟨q, hq⟩
    rw [le_iff hp hq, le_iff hq hp]
    exact le_total p q
  trans := by
    rintro a b c ⟨p, hp⟩ ⟨q, hq⟩ ⟨r, hr⟩
    rw [le_iff hp hq, le_iff hq hr, le_iff hp hr]
    exact le_trans
  strict_iff := by
    rintro a b ⟨p, hp⟩ ⟨q, hq⟩
    rw [le_iff hp hq, lt_iff hq hp, not_le]

/-- A position whose coordinates are members. -/
structure Position.Among (N : α → Prop) (p : Position α) : Prop where
  lat : N p.lat
  lon : N p.lon

/-- A box whose sides are members. -/
structure Extent.Among (N : α → Prop) (e : Extent α) : Prop where
  latMin : N e.latMin
  latMax : N e.latMax
  lonMin : N e.lonMin
  lonMax : N e.lonMax

/-- The position of the valid report of a message is one of numbers. -/
theorem Message.among_of_validReport? {m : Message Quantity} {r : PositionReport Quantity} (h : m.validReport? = some r) :
    r.position.Among Quantity.IsNumber where
  lat := (isNumber_of_validReport? h).1
  lon := (isNumber_of_validReport? h).2

namespace Extent

open OrderedOn

/-- A box whose sides are members, if there is one. -/
def AllAmong (N : α → Prop) (e : Option (Extent α)) : Prop := ∀ b, e = some b → b.Among N

variable [Navigation α]

/-- A box that is there and contains a position. -/
def Covers (e : Option (Extent α)) (p : Position α) : Prop := ∃ b, e = some b ∧ b.contains p = true

variable {N : α → Prop} {e : Extent α} {box : Option (Extent α)} {p q : Position α} {ps : List (Position α)}

/-- The sides of a box that has grown are sides that it had or coordinates. -/
theorem Among.grow (he : e.Among N) (hp : p.Among N) : (e.grow p).Among N where
  latMin := pick_mem Navigation.lt he.latMin hp.lat
  latMax := pick_mem (fun a b => Navigation.lt b a) he.latMax hp.lat
  lonMin := pick_mem Navigation.lt he.lonMin hp.lon
  lonMax := pick_mem (fun a b => Navigation.lt b a) he.lonMax hp.lon

/-- The sides of a box after a position are sides that it had or coordinates. -/
theorem AllAmong.observe (he : AllAmong N box) (hp : p.Among N) : AllAmong N (observe box p) := by
  rintro b hb
  cases box with
  | none =>
    cases hb
    exact ⟨hp.lat, hp.lat, hp.lon, hp.lon⟩
  | some e =>
    cases hb
    exact (he e rfl).grow hp

section Ordered

variable (h : OrderedOn N Navigation.le Navigation.lt)
include h

/-- A box that has grown to a position contains it. -/
theorem contains_grow_self (he : e.Among N) (hp : p.Among N) : (e.grow p).contains p = true :=
  contains_iff.2 ⟨⟨h.pick_le_right he.latMin hp.lat, h.flip.pick_le_right he.latMax hp.lat⟩,
    h.pick_le_right he.lonMin hp.lon, h.flip.pick_le_right he.lonMax hp.lon⟩

/-- A box that has grown contains what it contained. -/
theorem contains_grow (he : e.Among N) (hp : p.Among N) (hq : q.Among N) (hc : e.contains q = true) :
    (e.grow p).contains q = true := by
  obtain ⟨⟨h₁, h₂⟩, h₃, h₄⟩ := contains_iff.1 hc
  have hg := he.grow hp
  exact contains_iff.2
    ⟨⟨h.trans _ _ _ hg.latMin he.latMin hq.lat (h.pick_le_left he.latMin hp.lat) h₁,
      h.trans _ _ _ hq.lat he.latMax hg.latMax h₂ (h.flip.pick_le_left he.latMax hp.lat)⟩,
      h.trans _ _ _ hg.lonMin he.lonMin hq.lon (h.pick_le_left he.lonMin hp.lon) h₃,
      h.trans _ _ _ hq.lon he.lonMax hg.lonMax h₄ (h.flip.pick_le_left he.lonMax hp.lon)⟩

/-- A box does not grow to a position exactly if it contains it. -/
theorem grow_eq_self_iff (he : e.Among N) (hp : p.Among N) : e.grow p = e ↔ e.contains p = true := by
  have hsides : e.grow p = e ↔ (lower e.latMin p.lat = e.latMin ∧ upper e.latMax p.lat = e.latMax) ∧
      lower e.lonMin p.lon = e.lonMin ∧ upper e.lonMax p.lon = e.lonMax := by
    obtain ⟨_, _, _, _⟩ := e
    simp only [grow, mk.injEq, and_assoc]
  rw [hsides, contains_iff]
  exact and_congr
    (and_congr (h.pick_eq_left_iff he.latMin hp.lat) (h.flip.pick_eq_left_iff he.latMax hp.lat))
    (and_congr (h.pick_eq_left_iff he.lonMin hp.lon) (h.flip.pick_eq_left_iff he.lonMax hp.lon))

/-- After a position the box covers it. -/
theorem covers_observe_self (he : AllAmong N box) (hp : p.Among N) : Covers (observe box p) p := by
  cases box with
  | none => exact ⟨around p, rfl, contains_iff.2 ⟨⟨h.refl hp.lat, h.refl hp.lat⟩, h.refl hp.lon, h.refl hp.lon⟩⟩
  | some e => exact ⟨e.grow p, rfl, contains_grow_self h (he e rfl) hp⟩

/-- After a position the box covers what it covered. -/
theorem Covers.observe (hc : Covers box q) (he : AllAmong N box) (hp : p.Among N) (hq : q.Among N) : Covers (observe box p) q := by
  obtain ⟨e, rfl, hc⟩ := hc
  exact ⟨e.grow p, rfl, contains_grow h (he e rfl) hp hq hc⟩

/-- A position leaves the box as it is exactly if the box covers it. -/
theorem observe_eq_self_iff (he : AllAmong N box) (hp : p.Among N) : observe box p = box ↔ Covers box p := by
  cases box with
  | none => exact iff_of_false nofun fun ⟨_, hb, _⟩ => nomatch hb
  | some e =>
    rw [Extent.observe, Option.some.injEq, grow_eq_self_iff h (he e rfl) hp]
    exact ⟨fun hc => ⟨e, rfl, hc⟩, fun ⟨_, hb, hc⟩ => Option.some.inj hb ▸ hc⟩

omit h in
/-- The sides of a box after positions are sides that it had or coordinates. -/
theorem AllAmong.foldl_observe (he : AllAmong N box) (hps : ∀ p ∈ ps, p.Among N) : AllAmong N (ps.foldl Extent.observe box) := by
  induction ps generalizing box with
  | nil => exact he
  | cons p rest ih =>
    obtain ⟨hp, hrest⟩ := List.forall_mem_cons.1 hps
    exact ih (he.observe hp) hrest

/-- After positions the box covers what it covered. -/
theorem Covers.foldl_observe (hc : Covers box q) (he : AllAmong N box) (hps : ∀ p ∈ ps, p.Among N) (hq : q.Among N) :
    Covers (ps.foldl Extent.observe box) q := by
  induction ps generalizing box with
  | nil => exact hc
  | cons p rest ih =>
    obtain ⟨hp, hrest⟩ := List.forall_mem_cons.1 hps
    exact ih (hc.observe h he hp hq) (he.observe hp) hrest

/-- After positions the box covers each of them. -/
theorem covers_foldl_observe (he : AllAmong N box) (hps : ∀ p ∈ ps, p.Among N) (hq : q ∈ ps) :
    Covers (ps.foldl Extent.observe box) q := by
  induction ps generalizing box with
  | nil => cases hq
  | cons p rest ih =>
    obtain ⟨hp, hrest⟩ := List.forall_mem_cons.1 hps
    rw [List.foldl_cons]
    rcases List.mem_cons.1 hq with rfl | hq
    · exact (covers_observe_self h he hp).foldl_observe h (he.observe hp) hrest hp
    · exact ih (he.observe hp) hrest hq

/-- Positions that the box covers leave it as it is. -/
theorem foldl_observe_of_covers (he : AllAmong N box) (hps : ∀ p ∈ ps, p.Among N) (hc : ∀ p ∈ ps, Covers box p) :
    ps.foldl Extent.observe box = box := by
  induction ps with
  | nil => rfl
  | cons p rest ih =>
    obtain ⟨hp, hrest⟩ := List.forall_mem_cons.1 hps
    obtain ⟨hcp, hcrest⟩ := List.forall_mem_cons.1 hc
    rw [List.foldl_cons, (observe_eq_self_iff h he hp).2 hcp]
    exact ih hrest hcrest

/-- Positions that come again leave the box as it is. -/
theorem foldl_observe_again (he : AllAmong N box) (hps : ∀ p ∈ ps, p.Among N) :
    ps.foldl Extent.observe (ps.foldl Extent.observe box) = ps.foldl Extent.observe box :=
  foldl_observe_of_covers h (he.foldl_observe hps) hps fun _ hp => covers_foldl_observe h he hps hp

end Ordered
end Extent
end VesselTraffic
