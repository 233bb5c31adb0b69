import VesselTraffic.Fault.Basic
import VesselTraffic.Retagging.Basic

/-!
# Retaggers

A retagger holds a policy, a template and extra tags of its own, which apply to every packet that does not come with extra tags.
A packet is interpreted once, and a block that cannot be read is complained about then; so a packet that comes back is not
complained about again.
-/

namespace VesselTraffic

/-- A packet, and whether it has been interpreted before. -/
structure Intake where
  packet : Packet
  interpreted : Bool
deriving DecidableEq, Repr

namespace Intake

/-- A packet that has just come in. -/
def fresh (p : Packet) : Intake := ⟨p, false⟩

/-- The complaints about a packet that are still due. -/
def complaints (i : Intake) : Journal := if i.interpreted then [] else i.packet.complaints

end Intake

/-- A policy, a template and extra tags. -/
structure Retagger where
  policy : PolicyChoice
  template : Tagging
  extras : TagMap

namespace Retagger

/-- The retagger for a policy and a template, both of which it needs. -/
def create (policy : PolicyChoice) (template : Option Tagging) : Except PolicyFault Retagger :=
  match policy, template with
  | .other .null, _ => .error .required
  | _, none => .error .required
  | choice, some t => choice.resolve.map fun p => ⟨.policy p, t, TagMap.empty⟩

/-- The retagger with one of its own extra tags set. -/
def setExtra (r : Retagger) (key : Text) (value : Cell) : Except NumberFault Retagger :=
  value.display.map fun shown => { r with extras := r.extras.insert key shown }

/-- The retagger without one of its own extra tags. -/
def removeExtra (r : Retagger) (key : Text) : Retagger := { r with extras := r.extras.erase key }

/-- The retagger without extra tags of its own. -/
def clearExtras (r : Retagger) : Retagger := { r with extras := TagMap.empty }

/-- The retagger with something put in place of its policy. -/
def setPolicy (r : Retagger) (policy : PolicyChoice) : Retagger := { r with policy }

/-- What becomes of a packet; extra tags that come with it replace the retagger's own. -/
def transform (r : Retagger) (i : Intake) (extras : Option TagMap) : Outcome Retagger Retagging :=
  match r.policy.active with
  | .error e => ⟨r, .error (.policy e), []⟩
  | .ok p =>
    ⟨r, (p.retag i.packet r.template (extras.getD r.extras)).mapError .tag, i.complaints ++ p.remarks i.packet⟩

/-- A retagger as it is shown. -/
def toText (r : Retagger) : Except PolicyFault Text := do
  let name ← r.policy.name
  let template ← r.template.toText.mapError .number
  return "<TaggingTransformer(policy=".toList ++ name ++ ",tagging=".toList ++ template ++ ")>".toList

end Retagger
end VesselTraffic
