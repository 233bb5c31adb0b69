import VesselTraffic.Number.Fault

/-!
# Faults of tag blocks

A tag may be refused when it is added, and a text may fail to be a tag block when it is read. Keys and values are shown quoted. A tag
whose value is an integer that cannot be written does not get as far as that: its fault is that of the number.
-/

namespace VesselTraffic

/-- Why a tag was refused or a tag block could not be read. -/
inductive TagFault where
  | invalidKey (key : Option Text)
  | invalidValue (value key : Text)
  | missingChecksum (group : Text)
  | checksumMismatch (group expected given : Text)
  | malformedField (field : Text)
  | unterminated (line : Text)
  | number (fault : NumberFault)
deriving DecidableEq, Repr

namespace TagFault

/-- The category of a fault of a tag block. -/
def category : TagFault → Category
  | number e => e.category
  | _ => .tagBlock

/-- A key as it is shown, also when there is none. -/
def keyText : Option Text → Text
  | some k => k.quoted
  | none => "None".toList

/-- The wording of a fault of a tag block. -/
def message : TagFault → Text
  | invalidKey k => "Invalid tag key ".toList ++ keyText k ++ ['.']
  | invalidValue v k => "Invalid value ".toList ++ v.quoted ++ " for tag ".toList ++ k.quoted ++ ['.']
  | missingChecksum g => "Missing checksum in ".toList ++ g.quoted ++ ['.']
  | checksumMismatch g expected given =>
    "Checksum mismatch in ".toList ++ g.quoted ++ ": expected ".toList ++ expected ++ ", got ".toList ++ given ++ ['.']
  | malformedField f => "Malformed field ".toList ++ f.quoted ++ ['.']
  | unterminated l => "Unterminated tag block in ".toList ++ l.quoted ++ ['.']
  | number e => e.message

end TagFault
end VesselTraffic
