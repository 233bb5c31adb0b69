import VesselTraffic.TagBlock.Fault
import VesselTraffic.TagBlock.TagMap

/-!
# Writing tag blocks

A tag block is one line of text between two backslashes: the fields `key:value` of a tag map parted by commas, a star, and the
checksum of the fields in hexadecimal. A tag may be added if its text cannot be taken for any of these marks: a key is not empty
and has no comma, colon, star or backslash, a value has no comma and no backslash. An integer is written before it is added as a value.
-/

namespace VesselTraffic

/-- The exclusive or of all code points of a text, in upper-case hexadecimal of at least two digits. -/
def checksum (t : Text) : Text := Text.upperHex 2 (t.foldl (fun sum c => sum ^^^ c.toNat) 0)

/-- What is given as the value of a tag: a text, or an integer that has yet to be written. -/
inductive TagValue where
  | text (t : Text)
  | integer (n : Int)
deriving DecidableEq, Repr

/-- The text of a value. -/
def TagValue.write : TagValue → Except TagFault Text
  | text t => .ok t
  | integer n => (Number.writeInteger n).mapError .number

namespace TagMap

/-- A key that can be added: not empty and without the marks of a block. -/
def validKey (key : Text) : Bool := !key.isEmpty && key.all fun c => c != ',' && c != ':' && c != '*' && c != '\\'

/-- A value that can be added: without the marks that end a field or a block. -/
def validValue (value : Text) : Bool := value.all fun c => c != ',' && c != '\\'

/-- The map with a tag added, if its key and its value are valid. -/
def add (m : TagMap) (key value : Text) : Except TagFault TagMap :=
  if !validKey key then .error (.invalidKey (some key))
  else if !validValue value then .error (.invalidValue value key)
  else .ok (m.insert key value)

/-- The map with a tag added whose key may be missing and whose value has to be shown first, if the key is valid. -/
def addNamed (m : TagMap) (key : Option Text) (value : Except NumberFault Text) : Except TagFault TagMap :=
  match key with
  | some k => if !validKey k then .error (.invalidKey (some k)) else (value.mapError .number).bind (m.add k)
  | none => .error (.invalidKey none)

/-- The map with a tag added whose value is written first. -/
def addValue (m : TagMap) (key : Text) (value : TagValue) : Except TagFault TagMap := value.write.bind (m.add key)

/-- The map with an integer tag added. -/
def addInt (m : TagMap) (key : Text) (n : Int) : Except TagFault TagMap := m.addValue key (.integer n)

/-- The key of a time, in seconds. -/
def timeKey : Text := ['c']

/-- The map with a time in milliseconds added, rounded down to seconds. -/
def addTimestamp (m : TagMap) (ms : Int) : Except TagFault TagMap := m.addInt timeKey (ms / 1000)

/-- A field of a block. -/
def fieldText (e : Text × Text) : Text := e.1 ++ ':' :: e.2

/-- The fields of a block. -/
def body (m : TagMap) : Text := [','].intercalate (m.entries.map fieldText)

/-- A map as it is shown. -/
def toText (m : TagMap) : Text :=
  "<CommentBlock(\x7b".toList ++
    [',', ' '].intercalate (m.entries.map fun e => e.1.quoted ++ ':' :: ' ' :: e.2.quoted) ++ "\x7d)>".toList

/-- The block with its delimiters and its checksum. -/
def encode (m : TagMap) : Text := '\\' :: m.body ++ '*' :: checksum m.body ++ ['\\']

end TagMap
end VesselTraffic
