import VesselTraffic.Geo.Extent
import VesselTraffic.Record.Source
import VesselTraffic.Tracking.Registry

/-!
# Trackers

A tracker keeps a registry of targets by MMSI, in the order in which they were first seen. A message makes its target if it is
not there, grows the extent if it has a valid position, and is then applied to the target. A new target is worth an entry, and an MMSI
too long to be written there ends the message at that. A failure is counted and skipped. A stream is ingested item by item up to the
first fault.
-/

namespace VesselTraffic

/-- The targets of a scenario, the extent of all valid positions, and the number of failures skipped. -/
structure Tracker (α : Type) where
  retention : Retention α
  registry : Registry α
  extent : Option (Extent α)
  malformed : Nat

namespace Tracker

variable {α : Type}

/-- The tracker that has seen nothing. -/
def fresh (keep : Retention α) : Tracker α := ⟨keep, Registry.empty, none, 0⟩

/-- The number of targets. -/
def size (t : Tracker α) : Nat := t.registry.size

/-- A vessel that has a target. -/
def contains (t : Tracker α) (mmsi : Int) : Bool := t.registry.contains mmsi

/-- The target of a vessel. -/
def find? (t : Tracker α) (mmsi : Int) : Option (Target α) := t.registry.find? mmsi

/-- The target of a vessel, or the fault that it is not known. -/
def target (t : Tracker α) (mmsi : Int) : Except Fault (Target α) :=
  match t.find? mmsi with
  | some x => .ok x
  | none => .error (.tracking (.unknownTarget mmsi))

/-- The tracker with a target for a vessel, a new one at the end if there was none. -/
def ensure (t : Tracker α) (mmsi : Int) : Tracker α := { t with registry := t.registry.ensure mmsi }

/-- The entry for a new target, if its MMSI can be written. -/
def ensureRemarks (t : Tracker α) (mmsi : Int) : Except NumberFault Journal :=
  if t.contains mmsi then .ok []
  else (Number.writeInteger mmsi).map fun shown => [⟨.debug, "New target ".toList ++ shown⟩]

/-- The index of a vessel, which gets a target if it has none. The target is there before its entry is written. -/
def getOrCreate (t : Tracker α) (mmsi : Int) : Outcome (Tracker α) Nat :=
  match t.ensureRemarks mmsi with
  | .ok remarks => ⟨t.ensure mmsi, .ok ((t.registry.indexOf? mmsi).getD t.size), remarks⟩
  | .error e => ⟨t.ensure mmsi, .error (.number e), []⟩

/-- The tracker with the target of a vessel replaced. -/
def setTarget (t : Tracker α) (mmsi : Int) (x : Target α) : Tracker α := { t with registry := t.registry.replace mmsi x }

/-- The tracker with its extent grown by the valid position of a message. -/
def observe [Navigation α] (t : Tracker α) (m : Message α) : Tracker α :=
  match m.validReport? with
  | none => t
  | some r => { t with extent := Extent.observe t.extent r.position }

/-- An update of the target of a known vessel. -/
def updateTarget [Navigation α] (t : Tracker α) (mmsi : Int) (i : Item α) : Outcome (Tracker α) Unit :=
  match t.find? mmsi with
  | none => ⟨t, .error (.tracking (.unknownTarget mmsi)), []⟩
  | some x =>
    let o := x.update t.retention i
    ⟨t.setTarget mmsi o.state, o.result, o.journal⟩

/-- The tracker after a message. One that makes a target whose entry cannot be written does no more than that. -/
def apply [Navigation α] (t : Tracker α) (m : Message α) : Outcome (Tracker α) Unit :=
  match t.ensureRemarks m.mmsi with
  | .error e => ⟨t.ensure m.mmsi, .error (.number e), []⟩
  | .ok remarks =>
    let o := ((t.ensure m.mmsi).observe m).updateTarget m.mmsi (.message m)
    ⟨o.state, o.result, remarks ++ o.journal⟩

/-- The tracker after an item that has to be a message. -/
def update [Navigation α] (t : Tracker α) : Item α → Outcome (Tracker α) Unit
  | .failure _ => ⟨t, .error (.tracking .noSender), []⟩
  | .message m => t.apply m

/-- The entry for a failure that is skipped. -/
def skipRemark (f : DecodeFailure) : Entry :=
  ⟨.debug, "Skipping malformed input ".toList ++ f.raw.quoted ++ ':' :: ' ' :: f.reason⟩

/-- The tracker after an item; the answer is whether it was applied. -/
def ingest [Navigation α] (t : Tracker α) : Item α → Outcome (Tracker α) Bool
  | .failure f => ⟨{ t with malformed := t.malformed + 1 }, .ok false, [skipRemark f]⟩
  | .message m =>
    let o := t.apply m
    ⟨o.state, o.result.map fun _ => true, o.journal⟩

/-- The tracker after items, up to the first fault; the answers are those of the items. -/
def ingestAll [Navigation α] (t : Tracker α) : List (Item α) → Outcome (Tracker α) (List Bool)
  | [] => ⟨t, .ok [], []⟩
  | i :: rest =>
    let o := t.ingest i
    match o.result with
    | .error e => ⟨o.state, .error e, o.journal⟩
    | .ok applied =>
      let more := o.state.ingestAll rest
      ⟨more.state, more.result.map (applied :: ·), o.journal ++ more.journal⟩

/-- The tracker after an item that comes once for each subscription. -/
def deliver [Navigation α] (t : Tracker α) (subscriptions : Nat) (i : Item α) : Outcome (Tracker α) (List Bool) :=
  t.ingestAll (List.replicate subscriptions i)

/-- The entry at the end of a stream of which a number of messages were applied. -/
def streamRemark (t : Tracker α) (applied : Nat) : Entry :=
  ⟨.info, "Read ".toList ++ Text.ofNat applied ++ " messages, skipped ".toList ++ Text.ofNat t.malformed ++
    " malformed in total. Tracking ".toList ++ Text.ofNat t.size ++ " targets.".toList⟩

/-- The tracker after a stream; the answer is the number of messages applied. The stream may end in a fault of its own. -/
def readStream [Navigation α] (t : Tracker α) (source : Source α) : Outcome (Tracker α) Nat :=
  let o := t.ingestAll source.items
  let journal := source.journal ++ o.journal
  match o.result, source.fault with
  | .error e, _ => ⟨o.state, .error e, journal⟩
  | .ok _, some e => ⟨o.state, .error e, journal⟩
  | .ok answers, none =>
    let applied := answers.count true
    ⟨o.state, .ok applied, journal ++ [o.state.streamRemark applied]⟩

/-- The targets in the order in which they were first seen. -/
def targets (t : Tracker α) : List (Target α) := t.registry.targets

/-- The better of two times, where there are both. -/
def better (choose : Int → Int → Int) : Option Int → Option Int → Option Int
  | none, b => b
  | a, none => a
  | some a, some b => some (choose a b)

/-- The time of the first sample of all targets. -/
def begin? (t : Tracker α) : Option Int :=
  t.targets.foldl (fun bound x => better min bound (x.timeline.first?.map Sample.timestamp)) none

/-- The time of the last sample of all targets. -/
def end? (t : Tracker α) : Option Int :=
  t.targets.foldl (fun bound x => better max bound (x.timeline.last?.map Sample.timestamp)) none

/-- The order of targets by MMSI, those without one last. -/
def mmsiAtMost (a b : Target α) : Bool :=
  match a.mmsi, b.mmsi with
  | some m, some n => m ≤ n
  | none, some _ => false
  | _, none => true

/-- The targets by MMSI. -/
def targetsByMmsi (t : Tracker α) : List (Target α) := t.targets.mergeSort mmsiAtMost

/-- The targets with a sample by MMSI. -/
def positioned (t : Tracker α) : List (Target α) := (t.targets.filter Target.hasPosition).mergeSort mmsiAtMost

/-- The tracker with a label on a known target. -/
def labelTarget (t : Tracker α) (mmsi : Int) (l : Label) : Outcome (Tracker α) Unit :=
  match t.find? mmsi with
  | none => ⟨t, .error (.tracking (.unknownTarget mmsi)), []⟩
  | some x => ⟨t.setTarget mmsi (x.label l), .ok (), []⟩

/-- A tracker as it is shown, given how its extent is. -/
def toText (t : Tracker α) (extentText : Option (Extent α) → Text) : Text :=
  "<ScenarioTracker(targets=".toList ++ Text.ofNat t.size ++ ",bounding_box=".toList ++ extentText t.extent ++ ")>".toList

end Tracker
end VesselTraffic
