import VesselTraffic.Record.Cell
import VesselTraffic.Text.UpperCase

/-!
# Retagging policies

A policy says how the tags of a packet and those of a template become one block. A policy is chosen by its name in any case. A
retagger may be given something else in place of a policy; it is refused when the retagger is made, and when it is put in later,
at the first packet.
-/

namespace VesselTraffic

/-- How a packet is retagged. -/
inductive Policy where
  | prependMissing
  | replace
  | mergeOverride
  | mergePreserve
deriving DecidableEq, Repr

namespace Policy

/-- The name of a policy. -/
def name : Policy → Text
  | prependMissing => "PREPEND_MISSING".toList
  | replace => "REPLACE".toList
  | mergeOverride => "MERGE_OVERRIDE".toList
  | mergePreserve => "MERGE_PRESERVE".toList

/-- All policies. -/
def all : List Policy := [prependMissing, replace, mergeOverride, mergePreserve]

/-- The policy with a name, compared in upper case. -/
def ofName? (t : Text) : Option Policy := all.find? fun p => p.name = t.upper

end Policy

/-- What a retagger holds for its policy: a policy, or some other value that was put there. -/
inductive PolicyChoice where
  | policy (p : Policy)
  | other (value : Cell)

/-- Why a retagger cannot be made or has no use for its policy. -/
inductive PolicyFault where
  | required
  | unknown (shown : Text)
  | notImplemented (shown : Text)
  | unhashable (kind : String)
  | nameless (kind : String)
  | number (fault : NumberFault)
deriving DecidableEq, Repr

namespace PolicyFault

/-- The category of a policy fault. -/
def category : PolicyFault → Category
  | required | unhashable _ => .badType
  | unknown _ | notImplemented _ => .badValue
  | nameless _ => .missingAttribute
  | number e => e.category

/-- The wording of a policy fault. -/
def message : PolicyFault → Text
  | required => "Policy and tagging are required.".toList
  | unknown t => "Unknown tagging policy ".toList ++ t ++ ['.']
  | notImplemented t => "Policy ".toList ++ t ++ " not implemented.".toList
  | unhashable k => ("unhashable type: '" ++ k ++ "'").toList
  | nameless k => ("'" ++ k ++ "' object has no attribute 'name'").toList
  | number e => e.message

end PolicyFault

namespace PolicyChoice

/-- The policy that is meant when a retagger is made. -/
def resolve : PolicyChoice → Except PolicyFault Policy
  | policy p => .ok p
  | other .null => .error .required
  | other value => do
    let shown ← value.display.mapError .number
    match Policy.ofName? shown with
    | some p => return p
    | none => throw (.unknown (← value.literal.mapError .number))

/-- The policy that a packet is retagged by; only a policy itself will do. -/
def active : PolicyChoice → Except PolicyFault Policy
  | policy p => .ok p
  | other (.list cells) => .error (.unhashable (Cell.list cells).kind)
  | other (.record fields) => .error (.unhashable (Cell.record fields).kind)
  | other value => (value.display.mapError .number).bind fun shown => .error (.notImplemented shown)

/-- The name that the policy is shown by. -/
def name : PolicyChoice → Except PolicyFault Text
  | policy p => .ok p.name
  | other value => .error (.nameless value.kind)

end PolicyChoice
end VesselTraffic
