import VesselTraffic.Geo.Navigation

/-!
# Extents

An extent is a box of latitudes and longitudes. It grows by including positions: a side moves only to a coordinate that is
strictly beyond it, so one that cannot be compared moves nothing.
-/

namespace VesselTraffic

/-- A box of latitudes and longitudes. -/
structure Extent (α : Type) where
  latMin : α
  latMax : α
  lonMin : α
  lonMax : α
deriving DecidableEq, Repr

namespace Extent

variable {α : Type} [Navigation α]

/-- The smaller number, the first unless the second is strictly smaller. -/
def lower (a b : α) : α := if Navigation.lt b a then b else a

/-- The greater number, the first unless the second is strictly greater. -/
def upper (a b : α) : α := if Navigation.lt a b then b else a

/-- The box of one position. -/
def around (p : Position α) : Extent α := ⟨p.lat, p.lat, p.lon, p.lon⟩

/-- The box grown to a position. -/
def grow (e : Extent α) (p : Position α) : Extent α :=
  ⟨lower e.latMin p.lat, upper e.latMax p.lat, lower e.lonMin p.lon, upper e.lonMax p.lon⟩

/-- A position inside the box or on its edge. -/
def contains (e : Extent α) (p : Position α) : Bool :=
  Navigation.le e.latMin p.lat && Navigation.le p.lat e.latMax &&
    (Navigation.le e.lonMin p.lon && Navigation.le p.lon e.lonMax)

/-- The box that has been grown by a position, starting with it if there was none. -/
def observe (e : Option (Extent α)) (p : Position α) : Option (Extent α) :=
  match e with
  | none => some (around p)
  | some e => some (e.grow p)

end Extent
end VesselTraffic
