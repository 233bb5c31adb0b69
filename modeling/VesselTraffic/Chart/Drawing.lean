import VesselTraffic.Tracking.Tracker

/-!
# Drawings

A drawing of a scenario is a list of strokes. Every vessel with a sample has a track, by ascending MMSI, labelled with its name, and
right behind it a mark where it is at the time that is asked about, unless that is before its first sample. Then come the title and
the extent, if there is one, the names of the axes, and a legend if there is a track. A mark outside of the extent looks different.
-/

namespace VesselTraffic

/-- A stroke of a drawing; `place` counts the tracks. -/
inductive Stroke (α : Type) where
  | track (place : Nat) (points : List (Position α)) (label : Text)
  | mark (place : Nat) (point : Position α) (outside : Bool)
  | title (targets : Nat) (extent : Extent α)
  | extent (extent : Extent α)
  | xAxis
  | yAxis
  | legend
deriving DecidableEq, Repr

namespace Drawing

variable {α : Type} [Navigation α]

/-- A time that is asked about, as it could be read. -/
abbrev Moment := Except TimeFault Int

/-- The track of a target, which its name is put to. -/
def track (place : Nat) (x : Target α) : Except Fault (Stroke α) :=
  (x.name.mapError .number).map fun name => .track place (x.timeline.samples.map Sample.position) name

/-- The mark of a target at a time, or nothing before its first sample. -/
def markAt (extent : Option (Extent α)) (place : Nat) (x : Target α) (time : Int) : Except Fault (List (Stroke α)) :=
  match x.timeline.query time with
  | .ok s => .ok [.mark place s.position (extent.any fun e => !e.contains s.position)]
  | .error (.noPriorSample _) => .ok []
  | .error e => .error (.query e)

/-- The mark of a target at the time that is asked about, if one is. -/
def mark (extent : Option (Extent α)) (moment : Option Moment) (place : Nat) (x : Target α) :
    Except Fault (List (Stroke α)) :=
  match moment with
  | none => .ok []
  | some (.error e) => .error (.time e)
  | some (.ok time) => markAt extent place x time

/-- The tracks of targets with their marks, counted from a place on. -/
def tracks (extent : Option (Extent α)) (moment : Option Moment) : Nat → List (Target α) → Except Fault (List (Stroke α))
  | _, [] => .ok []
  | place, x :: rest =>
    (track place x).bind fun line =>
      (mark extent moment place x).bind fun m =>
        (tracks extent moment (place + 1) rest).map fun more => line :: m ++ more

/-- The strokes behind the tracks. -/
def surroundings (extent : Option (Extent α)) (targets : Nat) : List (Stroke α) :=
  (match extent with
    | none => []
    | some e => [.title targets e, .extent e]) ++
    [.xAxis, .yAxis] ++ (if targets = 0 then [] else [.legend])

/-- The drawing of a scenario. -/
def ofTracker (t : Tracker α) (moment : Option Moment) : Except Fault (List (Stroke α)) :=
  (tracks t.extent moment 0 t.positioned).map fun strokes => strokes ++ surroundings t.extent t.positioned.length

end Drawing
end VesselTraffic
