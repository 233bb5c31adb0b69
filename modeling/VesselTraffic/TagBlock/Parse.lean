import VesselTraffic.Number.Reader
import VesselTraffic.TagBlock.Encode

/-!
# Reading tag blocks

Blocks stand at the front of a line, one behind the other, each between two backslashes; the text between the two is a group. A
group is cut at its last star into its fields and its checksum, and a field at its first colon into its key and its value, so a
value may hold stars and colons. All groups of all lines go into one map, in order, a later value of a key replacing an earlier
one. What a list of lines reads as depends on its groups alone (`parse`).
-/

namespace VesselTraffic

/-- What a backslash at the front of a line opens: a group that another backslash closes, or none that does. -/
inductive Group where
  | closed (text : Text)
  | unterminated (line : Text)
deriving DecidableEq, Repr

namespace TagMap

/-- The groups of a line from a place on; `inside` is what has been read of the group there, last character first, or nothing
if the place is behind a group. -/
def groupsFrom (line : Text) : Option Text → Text → List Group
  | none, [] => []
  | none, c :: rest => if c = '\\' then groupsFrom line (some []) rest else []
  | some _, [] => [.unterminated line]
  | some inside, c :: rest =>
    if c = '\\' then .closed inside.reverse :: groupsFrom line none rest else groupsFrom line (some (c :: inside)) rest

/-- The groups at the front of a line. -/
def groups (line : Text) : List Group := groupsFrom line none line

/-- The map with the fields of a group inserted. -/
def readFields (m : TagMap) : List Text → Except TagFault TagMap
  | [] => .ok m
  | field :: rest =>
    match Text.cutFirst ':' field with
    | some (key, value) => if key = [] then .error (.malformedField field) else readFields (m.insert key value) rest
    | none => .error (.malformedField field)

/-- The map with a group inserted. -/
def readGroup (m : TagMap) : Group → Except TagFault TagMap
  | .unterminated line => .error (.unterminated line)
  | .closed text =>
    match Text.cutLast '*' text with
    | none => .error (.missingChecksum text)
    | some (body, given) =>
      if given.upper ≠ checksum body then .error (.checksumMismatch text (checksum body) given)
      else if body = [] then .ok m
      else m.readFields (body.splitOn ',')

/-- The map with groups inserted in order. -/
def readGroups (m : TagMap) : List Group → Except TagFault TagMap
  | [] => .ok m
  | g :: rest => (m.readGroup g).bind fun m' => m'.readGroups rest

/-- The map of all groups at the front of lines; nothing if there are no groups. -/
def parse (lines : List Text) : Except TagFault (Option TagMap) :=
  match lines.flatMap groups with
  | [] => .ok none
  | gs => (empty.readGroups gs).map some

/-- Times from here on are taken for milliseconds, smaller ones for seconds. -/
def millisFrom : Int := pow10 11

/-- The time of the block in milliseconds, if it has one and it is an integer. -/
def timestamp? (m : TagMap) : Option Int :=
  match m.find? timeKey with
  | none => none
  | some value =>
    match Number.readInteger value with
    | .error _ => none
    | .ok n => some (if millisFrom ≤ n then n else n * 1000)

end TagMap
end VesselTraffic
