import VesselTraffic.Geo.Navigation
import VesselTraffic.Message.Basic
import VesselTraffic.Message.ShipType
import VesselTraffic.Record.Cell

/-!
# Samples

A sample is a position of a vessel at one time with its course, speed and heading, and with how it is known: it was observed, or
it was estimated between two samples or beyond the last.
-/

namespace VesselTraffic

/-- How a position is known. -/
inductive SampleKind where
  | observed
  | interpolated
  | extrapolated
deriving DecidableEq, Repr

namespace SampleKind

/-- The name of a kind. -/
def name : SampleKind → String
  | observed => "observed"
  | interpolated => "interpolated"
  | extrapolated => "extrapolated"

/-- All kinds. -/
def all : List SampleKind := [observed, interpolated, extrapolated]

/-- The kind that a value names. -/
def ofCell? : Cell → Option SampleKind
  | .text t => all.find? fun k => k.name.toList = t
  | _ => none

/-- The kind that a value names, or the fault that it names none. -/
def read (value : Cell) : Except KindFault SampleKind :=
  match ofCell? value with
  | some k => .ok k
  | none => (value.literal.mapError .number).bind fun shown => .error (.unknownSampleKind shown)

end SampleKind

/-- The position of a vessel at one time. -/
structure Sample (α : Type) where
  timestamp : Int
  position : Position α
  cog : α
  sog : α
  heading : Int
  kind : SampleKind
deriving DecidableEq, Repr

namespace Sample

/-- The observed sample of a position report, its course and speed scaled from tenths. -/
def ofReport {α : Type} [Navigation α] (r : PositionReport α) : Except NumberFault (Sample α) :=
  (Navigation.tenths r.cog).bind fun cog =>
    (Navigation.tenths r.sog).map fun sog => ⟨r.timestamp, r.position, cog, sog, r.heading, .observed⟩

/-- A sample that was not observed. -/
def isEstimated {α : Type} (s : Sample α) : Bool := s.kind != .observed

end Sample
end VesselTraffic
