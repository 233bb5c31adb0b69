import VesselTraffic.Timeline.Basic

/-!
# Positions at a time

The position of a vessel at a time is that of the sample there. Without one it is interpolated between the samples before and
after, or reckoned from the last sample if there is none after; a last sample without course or speed is held in place. Before
the first sample there is no position, and the fault that says so names the time, if that can be written. Course, speed and heading
of an estimate are those of the sample before it.
-/

namespace VesselTraffic

/-- Why there is no position at a time. -/
inductive QueryFault where
  | noPriorSample (time : Int)
  | number (fault : NumberFault)
deriving DecidableEq, Repr

namespace QueryFault

/-- The category of a fault of a query. -/
def category : QueryFault → Category
  | noPriorSample _ => .noPriorSample
  | number e => e.category

/-- The wording of a fault of a query. -/
def message : QueryFault → Except NumberFault Text
  | noPriorSample t => (Number.writeInteger t).map fun shown => "No position known at or before ".toList ++ shown ++ ['.']
  | number e => .ok e.message

/-- The fault that there is no sample at or before a time, which is worded at once. -/
def noneBefore (time : Int) : QueryFault :=
  match (noPriorSample time).message with
  | .ok _ => noPriorSample time
  | .error e => number e

end QueryFault

namespace Timeline

variable {α : Type}

/-- The latest sample before a time. -/
def before? (t : Timeline α) (time : Int) : Option (Sample α) :=
  (t.samples.takeWhile fun s => s.timestamp < time).getLast?

/-- The earliest sample at or after a time. -/
def after? (t : Timeline α) (time : Int) : Option (Sample α) :=
  (t.samples.dropWhile fun s => s.timestamp < time).head?

/-- The estimate that takes a position at a time and all else from the sample before. -/
def estimate (s : Sample α) (time : Int) (kind : SampleKind) (p : Position α) : Sample α :=
  { s with timestamp := time, position := p, kind := kind }

/-- The sample between two samples. -/
def interpolated [Navigation α] (a b : Sample α) (time : Int) : Except NumberFault (Sample α) :=
  (Navigation.interpolate time a.timestamp a.position.lat b.timestamp b.position.lat).bind fun lat =>
    (Navigation.interpolate time a.timestamp a.position.lon b.timestamp b.position.lon).map fun lon =>
      estimate a time .interpolated ⟨lat, lon⟩

/-- The sample beyond the last one. -/
def extrapolated [Navigation α] (a : Sample α) (time : Int) : Except NumberFault (Sample α) :=
  (Navigation.hasMotion a.sog a.cog).bind fun moves =>
    if moves then
      (Navigation.reckon a.position a.cog a.sog (time - a.timestamp)).map (estimate a time .extrapolated)
    else .ok (estimate a time .extrapolated a.position)

/-- The sample at a time, stored or estimated. -/
def query [Navigation α] (t : Timeline α) (time : Int) : Except QueryFault (Sample α) :=
  match t.find? time with
  | some s => .ok s
  | none =>
    match t.before? time with
    | none => .error (.noneBefore time)
    | some a =>
      match t.after? time with
      | some b => (interpolated a b time).mapError .number
      | none => (extrapolated a time).mapError .number

end Timeline
end VesselTraffic
