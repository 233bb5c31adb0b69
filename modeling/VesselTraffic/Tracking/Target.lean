import VesselTraffic.Fault.Basic
import VesselTraffic.Message.ShipType
import VesselTraffic.Text.Blank

/-!
# Targets

A target is one vessel. The first message it takes fixes its MMSI, and a message of another vessel is refused and leaves it as it was; the
fault names both MMSIs, or is that of the one that cannot be written. Valid positions go into its timeline, static reports overwrite its
name, call sign, dimensions and type, and other messages only fix the MMSI. Labels are put on a target from outside.
-/

namespace VesselTraffic

/-- A label of a target. -/
inductive Label where
  | number (n : Int)
  | text (t : Text)
deriving DecidableEq, Repr

namespace Label

/-- The order of texts by code point. -/
def textBefore : Text → Text → Bool
  | [], [] => false
  | [], _ :: _ => true
  | _ :: _, [] => false
  | a :: s, b :: t => a.toNat < b.toNat || (a = b && textBefore s t)

/-- The order of labels: integers by value, then texts by code point. -/
def before : Label → Label → Bool
  | number m, number n => m < n
  | number _, text _ => true
  | text _, number _ => false
  | text s, text t => textBefore s t

/-- Labels in order with one more of them; a label that is there is not put twice. -/
def insert (l : Label) : List Label → List Label
  | [] => [l]
  | x :: rest => if l = x then x :: rest else if before l x then l :: x :: rest else x :: insert l rest

end Label

/-- What a target may be offered: an item, or something else of which only the name of its kind matters. -/
inductive Offer (α : Type) where
  | item (i : Item α)
  | other (kind : Text)

/-- A vessel: what is known of it, its labels in order and its timeline. -/
structure Target (α : Type) where
  mmsi : Option Int
  reportedName : Text
  callsign : Text
  dimensions : Dimensions
  shipType : ShipType
  labels : List Label
  timeline : Timeline α
deriving DecidableEq, Repr

/-- The text that a name was sent as: fillers become blanks, and blanks at its ends are dropped. -/
def plainName (sent : Text) : Text := Text.trim (sent.map fun c => if c = '@' then ' ' else c)

namespace Target

variable {α : Type}

/-- What stands for a dimension before it is reported. -/
def unknownDimension : Int := -1

/-- A vessel of which nothing is known. -/
def unknown : Target α :=
  { mmsi := none
    reportedName := []
    callsign := []
    dimensions := ⟨unknownDimension, unknownDimension, unknownDimension, unknownDimension⟩
    shipType := .notAvailable
    labels := []
    timeline := Timeline.empty }

/-- An MMSI as it is shown. -/
def mmsiText : Option Int → Except NumberFault Text
  | none => .ok "None".toList
  | some m => Number.writeInteger m

/-- The reported name, or the MMSI if there is none. -/
def name (t : Target α) : Except NumberFault Text := if t.reportedName = [] then mmsiText t.mmsi else .ok t.reportedName

/-- The target after a static report. -/
def applyStatic (t : Target α) (r : StaticReport) : Target α :=
  { t with
    reportedName := plainName r.name
    callsign := plainName r.callsign
    dimensions := r.dimensions
    shipType := (ShipType.ofCode? r.shipType).getD .notAvailable }

/-- The target after a valid position report. -/
def applyPosition [Navigation α] (keep : Retention α) (t : Target α) (r : PositionReport α) :
    Except NumberFault (Target α) :=
  (Sample.ofReport r).map fun s => { t with timeline := t.timeline.insert keep s }

/-- The target after a message of its own vessel. -/
def apply [Navigation α] (keep : Retention α) (t : Target α) : Message α → Except NumberFault (Target α)
  | .position r => if r.isValid then t.applyPosition keep r else .ok t
  | .static r => .ok (t.applyStatic r)
  | .other _ => .ok t

/-- The kind of a failure, as a fault names it. -/
def failureKind : Text := "DecodeFailure".toList

/-- The target after an item. A failure is not a message, and a message of another vessel is refused. -/
def update [Navigation α] (keep : Retention α) (t : Target α) : Item α → Outcome (Target α) Unit
  | .failure _ => ⟨t, .error (.tracking (.notAMessage failureKind)), []⟩
  | .message m =>
    let known := t.mmsi.getD m.mmsi
    if known = m.mmsi then
      let own := { t with mmsi := some known }
      match own.apply keep m with
      | .ok t' => ⟨t', .ok (), []⟩
      | .error e => ⟨own, .error (.number e), []⟩
    else
      let fault := TrackingFault.identityConflict m.mmsi known
      match fault.message with
      | .ok text => ⟨t, .error (.tracking fault), [⟨.error, text⟩]⟩
      | .error e => ⟨t, .error (.number e), []⟩

/-- The target after whatever it is offered. Something that is no item is refused as a failure is. -/
def offer [Navigation α] (keep : Retention α) (t : Target α) : Offer α → Outcome (Target α) Unit
  | .item i => t.update keep i
  | .other kind => ⟨t, .error (.tracking (.notAMessage kind)), []⟩

/-- The target with a label. -/
def label (t : Target α) (l : Label) : Target α := { t with labels := l.insert t.labels }

/-- A label of the target. -/
def isLabelled (t : Target α) (l : Label) : Bool := t.labels.contains l

/-- A target with a sample. -/
def hasPosition (t : Target α) : Bool := !t.timeline.samples.isEmpty

/-- A target as it is shown. -/
def toText (t : Target α) : Except NumberFault Text := do
  let mmsi ← mmsiText t.mmsi
  let name ← t.name
  return "<Target(mmsi=".toList ++ mmsi ++ ",name=".toList ++ name.quoted ++ ",samples=".toList ++ Text.ofNat t.timeline.size ++
    ")>".toList

end Target
end VesselTraffic
