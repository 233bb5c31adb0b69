import VesselTraffic.Packet.Crop
import VesselTraffic.Packet.Tagging
import VesselTraffic.Retagging.Policy

/-!
# Retagging packets

A packet is retagged from its own tags, a template and extra tags.

* Prepending puts a block with what the packet lacks in front of its text, or leaves the packet alone if it lacks nothing.
* Replacing writes a new block from the template and the time of the packet, and keeps the cropped lines without the proprietary
  sentences.
* Merging writes the template into the own tags, over them or beside them, and keeps all cropped lines. It does not apply to a
  packet without a frame.

Extra tags come last. Replacing and overriding write them over all others. Prepending and preserving leave out those whose key
is present; if a preserved packet has no block of its own, nothing counts as present, not even the template.
-/

namespace VesselTraffic

/-- What becomes of a packet. -/
inductive Retagging where
  | inapplicable
  | unchanged
  | retagged (p : Packet)
deriving DecidableEq, Repr

namespace Retagging

/-- A tag map with extra tags added, those with a key of `present` left out. -/
def addExtras (m : TagMap) (present : Option TagMap) (extras : TagMap) : Except TagFault TagMap :=
  let absent := fun e : Text × TagValue =>
    match present with
    | none => true
    | some p => !p.contains e.1
  (m.addAll (extras.given.filter absent)).complete

/-- A text of lines with the block of a map in front, unless the map is empty. -/
def withBlock (m : TagMap) (lines : List Text) : Text :=
  if m.isEmpty then Sentence.join lines else m.encode ++ Sentence.lineBreak ++ Sentence.join lines

/-- The tags that a packet lacks of a template and of extra tags. -/
def lacking (p : Packet) (template : Tagging) (extras : TagMap) : Except TagFault TagMap :=
  (((Tagging.ofPacket p).missingFrom template).toTags).bind fun m => addExtras m p.tags? extras

/-- The packet with what it lacks prepended. -/
def prepend (p : Packet) (template : Tagging) (extras : TagMap) : Except TagFault Retagging :=
  (lacking p template extras).map fun m =>
    if m.isEmpty then .unchanged else .retagged { p with raw := m.encode ++ Sentence.lineBreak ++ p.raw }

/-- The tags of a replaced block. -/
def replacement (p : Packet) (template : Tagging) (extras : TagMap) : Except TagFault TagMap :=
  (({ template with timestamp := some p.timestamp } : Tagging).toTags).bind fun m => addExtras m none extras

/-- The packet with its block replaced. -/
def replace (p : Packet) (template : Tagging) (extras : TagMap) : Except TagFault Retagging :=
  (replacement p template extras).map fun m =>
    .retagged { p with raw := withBlock m (Sentence.crop true p.lines) }

/-- The tags of a merged block; `own` is nothing if the packet has no block. -/
def merged (override : Bool) (own : Option TagMap) (template : Tagging) (extras : TagMap) : Except TagFault TagMap :=
  let start := own.getD TagMap.empty
  let written := if override then template.writeOver start else template.writeMissing start
  written.complete.bind fun m => addExtras m (if override then none else own.map fun _ => m) extras

/-- The packet with a template merged into its block. -/
def merge (override : Bool) (p : Packet) (template : Tagging) (extras : TagMap) : Except TagFault Retagging :=
  match p.frame? with
  | none => .ok .inapplicable
  | some f =>
    (merged override f.tags template extras).map fun m =>
      .retagged { p with raw := withBlock m (Sentence.crop false p.lines) }

end Retagging

/-- What becomes of a packet under a policy. -/
def Policy.retag (policy : Policy) (p : Packet) (template : Tagging) (extras : TagMap) : Except TagFault Retagging :=
  match policy with
  | .prependMissing => Retagging.prepend p template extras
  | .replace => Retagging.replace p template extras
  | .mergeOverride => Retagging.merge true p template extras
  | .mergePreserve => Retagging.merge false p template extras

/-- What retagging a packet says about its base station: only prepending reads its tagging. -/
def Policy.remarks (policy : Policy) (p : Packet) : Journal :=
  match policy with
  | .prependMissing => Tagging.packetRemarks p
  | _ => []

end VesselTraffic
