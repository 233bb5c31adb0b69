import VesselTraffic.Packet.Basic

/-!
# Taggings

Five tags are well known: when a packet was received, and by which source, base station, country and kind of source. A tagging
holds those of them that are set. It is read off a packet, completed from another tagging field by field, and written into a tag
map, either over the tags there or beside them. A value is written out before it is known whether its tag is added at all. Writing stops
at the first tag that is refused and leaves what was written.
-/

namespace VesselTraffic

/-- The well-known tags of a packet; the time is in milliseconds. -/
structure Tagging where
  timestamp : Option Int
  sourceId : Option Text
  sourceBs : Option Int
  sourceCountry : Option Text
  sourceType : Option Text
deriving DecidableEq, Repr

/-- A tag map into which tags were written, and the refusal that ended the writing if there was one. -/
structure Written where
  map : TagMap
  refusal : Option TagFault
deriving DecidableEq, Repr

namespace Written

/-- The map if no tag was refused. -/
def complete (w : Written) : Except TagFault TagMap :=
  match w.refusal with
  | none => .ok w.map
  | some e => .error e

end Written

namespace TagMap

/-- The map with tags added in order up to the first one that is refused. -/
def addAll (m : TagMap) : List (Text × TagValue) → Written
  | [] => ⟨m, none⟩
  | t :: rest =>
    match m.addValue t.1 t.2 with
    | .ok m' => m'.addAll rest
    | .error e => ⟨m, some e⟩

/-- The map with those tags added, in order, whose keys it lacks, up to the first one that is refused or cannot be written. -/
def addMissing (m : TagMap) : List (Text × TagValue) → Written
  | [] => ⟨m, none⟩
  | t :: rest =>
    match t.2.write.bind fun value => if m.contains t.1 then .ok m else m.add t.1 value with
    | .ok m' => m'.addMissing rest
    | .error e => ⟨m, some e⟩

/-- The tags of a map as they are given to another one. -/
def given (m : TagMap) : List (Text × TagValue) := m.entries.map fun e => (e.1, .text e.2)

end TagMap

namespace Tagging

/-- The key of the source. -/
def idKey : Text := ['s', 'i']

/-- The key of the base station. -/
def bsKey : Text := ['s', 'b']

/-- The key of the country. -/
def countryKey : Text := ['s', 'c']

/-- The key of the kind of source. -/
def typeKey : Text := ['s', 't']

/-- The tagging without a tag. -/
def empty : Tagging := ⟨none, none, none, none, none⟩

/-- A tagging without a tag. -/
def isEmpty (t : Tagging) : Bool := t = empty

/-- The integer that a value spells. -/
def integer? (value : Text) : Option Int := (Number.readInteger value).toOption

/-- The tagging that a tag map holds. -/
def ofTags (m : TagMap) : Tagging :=
  { timestamp := m.timestamp?
    sourceId := m.find? idKey
    sourceBs := (m.find? bsKey).bind integer?
    sourceCountry := m.find? countryKey
    sourceType := m.find? typeKey }

/-- The entry for a base station that is not an integer. -/
def remarks (m : TagMap) : Journal :=
  match m.find? bsKey with
  | none => []
  | some value =>
    if (integer? value).isSome then []
    else [⟨.debug, "Ignoring non-integer tag ".toList ++ bsKey ++ ':' :: value⟩]

/-- The tagging of a packet; empty without a block. -/
def ofPacket (p : Packet) : Tagging :=
  match p.tags? with
  | none => empty
  | some m => ofTags m

/-- What reading the tagging of a packet is worth in the journal. -/
def packetRemarks (p : Packet) : Journal :=
  match p.tags? with
  | none => []
  | some m => remarks m

/-- The fields of `t`, and where they are not set those of `other`. -/
def orElse (t other : Tagging) : Tagging :=
  { timestamp := t.timestamp <|> other.timestamp
    sourceId := t.sourceId <|> other.sourceId
    sourceBs := t.sourceBs <|> other.sourceBs
    sourceCountry := t.sourceCountry <|> other.sourceCountry
    sourceType := t.sourceType <|> other.sourceType }

/-- A field that is set in the second tagging and not in the first. -/
def missingField {α : Type} (own other : Option α) : Option α := if own.isNone then other else none

/-- The fields of `other` that are not set in `t`. -/
def missingFrom (t other : Tagging) : Tagging :=
  { timestamp := missingField t.timestamp other.timestamp
    sourceId := missingField t.sourceId other.sourceId
    sourceBs := missingField t.sourceBs other.sourceBs
    sourceCountry := missingField t.sourceCountry other.sourceCountry
    sourceType := missingField t.sourceType other.sourceType }

/-- The tag of a field that is set. -/
def tag {α : Type} (key : Text) (value : α → TagValue) (field : Option α) : List (Text × TagValue) :=
  match field with
  | none => []
  | some x => [(key, value x)]

/-- The tags of a tagging in the order in which they are written. The time is rounded down to seconds. -/
def tags (t : Tagging) : List (Text × TagValue) :=
  tag TagMap.timeKey (fun ms => .integer (ms / 1000)) t.timestamp ++ tag idKey .text t.sourceId ++
    tag bsKey .integer t.sourceBs ++ tag countryKey .text t.sourceCountry ++ tag typeKey .text t.sourceType

/-- A tag map with the tags of a tagging written over those it has. -/
def writeOver (t : Tagging) (m : TagMap) : Written := m.addAll t.tags

/-- A tag map with those tags of a tagging written whose keys it lacks. -/
def writeMissing (t : Tagging) (m : TagMap) : Written := m.addMissing t.tags

/-- A tag map with the tags of a tagging alone. -/
def toTags (t : Tagging) : Except TagFault TagMap := (t.writeOver TagMap.empty).complete

/-- The value of a field that is a text, as it is shown. -/
def textShown (field : Option Text) : Except NumberFault Text :=
  match field with
  | none => .ok "None".toList
  | some t => .ok t.quoted

/-- The value of a field that is an integer, as it is shown. -/
def integerShown (field : Option Int) : Except NumberFault Text :=
  match field with
  | none => .ok "None".toList
  | some n => Number.writeInteger n

/-- A tagging as it is shown. -/
def toText (t : Tagging) : Except NumberFault Text := do
  let timestamp ← integerShown t.timestamp
  let sourceId ← textShown t.sourceId
  let sourceBs ← integerShown t.sourceBs
  let sourceCountry ← textShown t.sourceCountry
  let sourceType ← textShown t.sourceType
  return "PacketTagging(timestamp=".toList ++ timestamp ++ ", source_id=".toList ++ sourceId ++ ", source_bs=".toList ++ sourceBs ++
    ", source_country=".toList ++ sourceCountry ++ ", source_type=".toList ++ sourceType ++ [')']

end Tagging
end VesselTraffic
