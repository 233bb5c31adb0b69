import VesselTraffic.Geo.Navigation
import VesselTraffic.Text.Basic

/-!
# Messages

A decoded message reports a position, static data of a vessel, or neither and is known by its sender alone. What could not be
decoded is a failure, which takes its place in a stream of items like any message.
-/

namespace VesselTraffic

/-- A report of a vessel's position, with course and speed in tenths. -/
structure PositionReport (α : Type) where
  mmsi : Int
  timestamp : Int
  position : Position α
  cog : Int
  sog : Int
  heading : Int
  valid : Bool
  kind : Int
deriving DecidableEq, Repr

/-- The distances of a ship's reference point from its sides, in meters. -/
structure Dimensions where
  toBow : Int
  toStern : Int
  toPort : Int
  toStarboard : Int
deriving DecidableEq, Repr

/-- A report of a vessel's static data, with its name as it was sent. -/
structure StaticReport where
  mmsi : Int
  timestamp : Int
  name : Text
  dimensions : Dimensions
  shipType : Int
  callsign : Text
  kind : Int
deriving DecidableEq, Repr

/-- A message with neither position nor static data. -/
structure OtherMessage where
  mmsi : Int
  timestamp : Int
  kind : Int
deriving DecidableEq, Repr

/-- A decoded message. -/
inductive Message (α : Type) where
  | position (r : PositionReport α)
  | static (r : StaticReport)
  | other (m : OtherMessage)
deriving DecidableEq, Repr

/-- What could not be decoded, and why. -/
structure DecodeFailure where
  raw : Text
  reason : Text
deriving DecidableEq, Repr

/-- An item of a stream: a message or a failure. -/
inductive Item (α : Type) where
  | message (m : Message α)
  | failure (f : DecodeFailure)
deriving DecidableEq, Repr

/-- The heading that says that none is available. -/
def headingNotAvailable : Int := 511

/-- A position that is flagged valid and lies within the latitudes and longitudes of the earth. -/
def PositionReport.isValid {α : Type} [Navigation α] (r : PositionReport α) : Bool :=
  r.valid && (Navigation.le (Navigation.degrees (-90)) r.position.lat && Navigation.le r.position.lat (Navigation.degrees 90)) &&
    (Navigation.le (Navigation.degrees (-180)) r.position.lon && Navigation.le r.position.lon (Navigation.degrees 180))

namespace Message

/-- The sender of a message. -/
def mmsi {α : Type} : Message α → Int
  | position r => r.mmsi
  | static r => r.mmsi
  | other m => m.mmsi

/-- The position report of a message, if it is one with a valid position. -/
def validReport? {α : Type} [Navigation α] : Message α → Option (PositionReport α)
  | position r => if r.isValid then some r else none
  | _ => none

end Message
end VesselTraffic
