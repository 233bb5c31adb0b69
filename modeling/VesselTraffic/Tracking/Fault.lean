import VesselTraffic.Number.Fault

/-!
# Faults of tracking

A target takes messages only, and only those of its own vessel; a tracker answers only for vessels that it knows.
-/

namespace VesselTraffic

/-- Why an item was not applied or a vessel could not be asked about. -/
inductive TrackingFault where
  | notAMessage (kind : Text)
  | noSender
  | identityConflict (sender own : Int)
  | unknownTarget (mmsi : Int)
deriving DecidableEq, Repr

namespace TrackingFault

/-- The category of a fault of tracking. -/
def category : TrackingFault → Category
  | notAMessage _ => .badType
  | noSender => .missingAttribute
  | identityConflict _ _ => .identityConflict
  | unknownTarget _ => .unknownTarget

/-- The wording of a fault of tracking. -/
def message : TrackingFault → Except NumberFault Text
  | notAMessage kind => .ok ("Cannot update target from ".toList ++ kind ++ ['.'])
  | noSender => .ok "'DecodeFailure' object has no attribute 'mmsi'".toList
  | identityConflict sender own => do
    let sender ← Number.writeInteger sender
    let own ← Number.writeInteger own
    return "Message from mmsi ".toList ++ sender ++ " cannot update target with mmsi ".toList ++ own
  | unknownTarget m => Number.writeInteger m

end TrackingFault
end VesselTraffic
