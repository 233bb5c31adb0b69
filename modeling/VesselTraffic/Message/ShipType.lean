import VesselTraffic.Number.Fault

/-!
# Ship types

The code of a ship says what kind of ship it is. Most kinds have a range of ten codes; the codes without a kind are not found. The
fault that says so, which a name of a kind of samples may meet as well, shows what stands for nothing.
-/

namespace VesselTraffic

/-- Why a code or a name stands for no kind. -/
inductive KindFault where
  | unknownShipType (shown : Text)
  | unknownSampleKind (shown : Text)
  | number (fault : NumberFault)
deriving DecidableEq, Repr

namespace KindFault

/-- The category of a fault of kinds. -/
def category : KindFault → Category
  | unknownShipType _ | unknownSampleKind _ => .badValue
  | number e => e.category

/-- The wording of a fault of kinds. -/
def message : KindFault → Text
  | unknownShipType t => "Ship type ".toList ++ t ++ " not found.".toList
  | unknownSampleKind t => t ++ " is not a valid SampleKind".toList
  | number e => e.message

end KindFault

/-- The kinds of ships. -/
inductive ShipType where
  | notAvailable
  | wingInGround
  | fishing
  | tug
  | military
  | sailing
  | pleasure
  | highSpeed
  | passenger
  | cargo
  | tanker
  | other
deriving DecidableEq, Repr

namespace ShipType

/-- The name of a kind of ships. -/
def name : ShipType → String
  | notAvailable => "NOTAVAILABLE"
  | wingInGround => "WIG"
  | fishing => "FISHING"
  | tug => "TUGTOW"
  | military => "MILITARY"
  | sailing => "SAILING"
  | pleasure => "PLEASURE"
  | highSpeed => "HSC"
  | passenger => "PASSENGER"
  | cargo => "CARGO"
  | tanker => "TANKER"
  | other => "OTHER"

/-- The kind of ships with a code. -/
def ofCode? (code : Int) : Option ShipType :=
  if code = 0 then some notAvailable
  else if 20 ≤ code ∧ code < 30 then some wingInGround
  else if code = 30 then some fishing
  else if code = 31 ∨ code = 32 ∨ code = 52 then some tug
  else if code = 33 ∨ code = 34 then some other
  else if code = 35 then some military
  else if code = 36 then some sailing
  else if code = 37 then some pleasure
  else if 40 ≤ code ∧ code < 50 then some highSpeed
  else if 50 ≤ code ∧ code < 60 then some other
  else if 60 ≤ code ∧ code < 70 then some passenger
  else if 70 ≤ code ∧ code < 80 then some cargo
  else if 80 ≤ code ∧ code < 90 then some tanker
  else if 90 ≤ code ∧ code < 100 then some other
  else none

/-- The kind of ships with a code, or the fault that there is none. -/
def read (code : Int) : Except KindFault ShipType :=
  match ofCode? code with
  | some t => .ok t
  | none => ((Number.writeInteger code).mapError .number).bind fun shown => .error (.unknownShipType shown)

end ShipType
end VesselTraffic
