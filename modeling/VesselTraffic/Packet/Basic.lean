import VesselTraffic.Journal.Entry
import VesselTraffic.Packet.Sentence
import VesselTraffic.TagBlock.Parse

/-!
# Packets

A packet is a text as it was received and the time when that was. It is interpreted as the sentences of its lines, one a line at
most, and the tag map of the blocks in front of its lines. Without a sentence, or with a block that cannot be read, it has no
frame; the second is worth an entry in the journal.
-/

namespace VesselTraffic

/-- A text as received, with the time of reception in milliseconds. -/
structure Packet where
  raw : Text
  received : Int
deriving DecidableEq, Repr

/-- The sentences of a packet, and its tag map if it has a block. -/
structure Frame where
  sentences : List Text
  tags : Option TagMap
deriving DecidableEq, Repr

namespace Packet

/-- The pieces of a text between its line feeds, a carriage return right before a line feed left out with it. -/
def breakLines : Text → List Text
  | [] => [[]]
  | c :: rest =>
    if c = '\n' then [] :: breakLines rest
    else if c = '\r' ∧ rest.head? = some '\n' then breakLines rest
    else (breakLines rest).modifyHead (c :: ·)

/-- The lines of a packet that are not empty. -/
def lines (p : Packet) : List Text := (breakLines p.raw).filter (· ≠ [])

/-- The leftmost sentences of the lines. -/
def sentences (p : Packet) : List Text := p.lines.filterMap Sentence.find?

/-- The frame of a packet: nothing without a sentence, a fault if a block cannot be read. -/
def interpret (p : Packet) : Except TagFault (Option Frame) :=
  if p.sentences = [] then .ok none else (TagMap.parse p.lines).map fun tags => some ⟨p.sentences, tags⟩

/-- The frame of a packet that can be interpreted. -/
def frame? (p : Packet) : Option Frame :=
  match p.interpret with
  | .ok f => f
  | .error _ => none

/-- The entry for a block that cannot be read. -/
def complaints (p : Packet) : Journal :=
  match p.interpret with
  | .ok _ => []
  | .error e => [⟨.debug, "Uninterpretable comment block: ".toList ++ e.message⟩]

/-- The tag map of a packet with a frame and a block. -/
def tags? (p : Packet) : Option TagMap := p.frame?.bind Frame.tags

/-- The best time of a packet: that of its block, if it has one, else that of its reception. -/
def timestamp (p : Packet) : Int := (p.tags?.bind TagMap.timestamp?).getD p.received

/-- A packet as it is shown. -/
def toText (p : Packet) : Except NumberFault Text :=
  (Number.writeInteger p.received).map fun received =>
    "<AisPacket(raw=".toList ++ p.raw.quoted ++ ",receive_timestamp=".toList ++ received ++ ")>".toList

end Packet
end VesselTraffic
