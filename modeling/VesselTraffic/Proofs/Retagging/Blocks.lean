import VesselTraffic.Proofs.Packet.Cropping
import VesselTraffic.Proofs.Packet.Lines
import VesselTraffic.Proofs.TagBlock.RoundTrip
import VesselTraffic.Retagging.Basic

/-!
# The frames of rewritten packets

A block that is written in front of lines becomes a line of its own unless a tag has a line feed in it, which no check rules out.
Then the block is broken, its first line starts a group that has no end, and the packet has no frame (`frame?_lineFeed`). Otherwise
the first line reads as the tags of the block and may, if the tags spell one, have a sentence of its own (`frame?_encode`).
-/

namespace VesselTraffic

namespace TagMap

/-- The characters that a block may have besides those of its tags. -/
def blockMarks : Text := ['\\', '*', ',', ':'] ++ Text.upperHexDigits

/-- Any other character of a block is one of its fields. -/
theorem mem_encode_iff_mem_body {m : TagMap} {c : Char} (h : c ∉ blockMarks) : c ∈ m.encode ↔ c ∈ m.body := by
  simp only [blockMarks, List.cons_append, List.nil_append, List.mem_cons, not_or] at h
  obtain ⟨hbackslash, hstar, -, -, hhex⟩ := h
  have hsum : c ∉ checksum m.body := not_mem_checksum hhex m.body
  simp only [encode, List.mem_append, List.mem_cons, List.not_mem_nil, hsum, hbackslash, hstar, or_false, false_or]

/-- Any other character of a block is one of its tags. -/
theorem mem_encode_iff {m : TagMap} {c : Char} (h : c ∉ blockMarks) :
    c ∈ m.encode ↔ ∃ t ∈ m.entries, c ∈ t.1 ∨ c ∈ t.2 := by
  have hcomma : c ≠ ',' := by
    rintro rfl
    exact h (by decide)
  have hcolon : c ≠ ':' := by
    rintro rfl
    exact h (by decide)
  rw [mem_encode_iff_mem_body h, body, mem_intercalate_iff hcomma]
  constructor
  · rintro ⟨f, hf, hc⟩
    obtain ⟨t, ht, rfl⟩ := List.mem_map.1 hf
    refine ⟨t, ht, ?_⟩
    simpa [fieldText, hcolon] using hc
  · rintro ⟨t, ht, hc⟩
    refine ⟨fieldText t, List.mem_map_of_mem ht, ?_⟩
    simpa [fieldText, hcolon] using hc

/-- A block starts with a backslash. -/
theorem encode_ne_nil (m : TagMap) : m.encode ≠ [] := by
  rw [encode]
  exact List.cons_ne_nil _ _

/-- Lines that start with a group without an end cannot be parsed. -/
theorem parse_unterminated {t : Text} (h : '\\' ∉ t) (lines : List Text) (tags : Option TagMap) :
    parse (('\\' :: t) :: lines) ≠ .ok tags := by
  rw [parse_eq, List.flatMap_cons, groups_unterminated h, List.singleton_append, if_neg (List.cons_ne_nil _ _)]
  exact fun e => by cases e

/-- Lines that start with no backslash have no groups. -/
theorem flatMap_groups_eq_nil {lines : List Text} (h : ∀ line ∈ lines, line.head? ≠ some '\\') :
    lines.flatMap groups = [] :=
  List.flatMap_eq_nil_iff.2 fun line hl => groups_eq_nil_iff.2 (h line hl)

end TagMap

namespace Sentence

/-- A line of a packet is cropped to a line that is not empty and starts no group. -/
theorem line_of_mem_crop {p : Packet} {dropProprietary : Bool} {piece : Text} (h : piece ∈ crop dropProprietary p.lines) :
    (piece ≠ [] ∧ '\n' ∉ piece) ∧ piece.head? ≠ some '\\' := by
  obtain ⟨line, hline, hcrop⟩ := List.mem_filterMap.1 h
  obtain ⟨hpiece, c, rest, rfl, hc⟩ := infix_of_cropLine hcrop
  refine ⟨⟨List.cons_ne_nil _ _, fun hm => Packet.lineFeed_not_mem_of_mem_lines hline (hpiece.subset hm)⟩, ?_⟩
  intro e
  rcases hc with rfl | rfl
  · exact absurd (Option.some.inj e) (by decide)
  · exact absurd (Option.some.inj e) (by decide)

end Sentence

namespace Packet

/-- The frame of sentences and tags: none without a sentence. -/
def frameOf (sentences : List Text) (tags : Option TagMap) : Option Frame :=
  if sentences = [] then none else some ⟨sentences, tags⟩

/-- A frame has the tags that it was made with. -/
theorem tags_of_frameOf {sentences : List Text} {tags : Option TagMap} {f : Frame} (h : frameOf sentences tags = some f) :
    f.tags = tags := by
  unfold frameOf at h
  split at h
  · cases h
  · rw [← Option.some.inj h]

/-- A packet has a frame exactly if its tags can be read and it has a sentence. -/
theorem frame?_eq (p : Packet) :
    p.frame? = match TagMap.parse p.lines with
      | .ok tags => frameOf p.sentences tags
      | .error _ => none := by
  unfold frame? interpret frameOf
  by_cases hs : p.sentences = []
  · rw [if_pos hs]
    cases TagMap.parse p.lines with
    | ok tags => exact (if_pos hs).symm
    | error e => rfl
  · rw [if_neg hs]
    cases TagMap.parse p.lines with
    | ok tags => exact (if_neg hs).symm
    | error e => rfl

/-- The frame of a packet has the sentences of its lines, at least one, and the tags of its lines. -/
theorem frame?_eq_some_iff {p : Packet} {f : Frame} :
    p.frame? = some f ↔ f.sentences = p.sentences ∧ p.sentences ≠ [] ∧ TagMap.parse p.lines = .ok f.tags := by
  obtain ⟨sentences, tags⟩ := f
  rw [frame?_eq]
  cases hp : TagMap.parse p.lines with
  | error e => simp
  | ok tags' =>
    unfold frameOf
    by_cases hs : p.sentences = []
    · simp [hs]
    · simp [hs, eq_comm]

/-- The tags of a packet with a frame. -/
theorem tags?_of_frame? {p : Packet} {f : Frame} (h : p.frame? = some f) : p.tags? = f.tags := by
  rw [tags?, h]
  rfl

/-- A line put in front of a packet may add a sentence in front of those of the packet. -/
theorem sentences_cons {line : Text} (h : line ≠ []) (hf : '\n' ∉ line) (t : Text) (received : Int) :
    (Packet.mk (line ++ Sentence.lineBreak ++ t) received).sentences =
      (Sentence.find? line).toList ++ (Packet.mk t received).sentences := by
  rw [sentences, lines_cons h hf, Sentence.filterMap_cons_eq_append]
  rfl

/-- A packet that starts with a block that has a line feed in it has no frame. -/
theorem frame?_lineFeed {m : TagMap} (hm : m.Legible) (hf : '\n' ∈ m.encode) (t : Text) (received : Int) :
    (Packet.mk (m.encode ++ t) received).frame? = none := by
  obtain ⟨a, b, hbody, ha, -⟩ := Text.exists_fromFirst ((TagMap.mem_encode_iff_mem_body (by decide)).1 hf)
  have hback : '\\' ∉ a := fun h => hm.backslash_not_mem_body (hbody ▸ List.mem_append_left _ h)
  obtain ⟨rest, hraw⟩ : ∃ rest, m.encode ++ t = '\\' :: (a ++ '\n' :: rest) :=
    ⟨b ++ '*' :: checksum m.body ++ ['\\'] ++ t, by simp [TagMap.encode, hbody]⟩
  obtain ⟨line, hline, hfirst⟩ := exists_first_line ha rest
  have hlines : (Packet.mk (m.encode ++ t) received).lines = ('\\' :: line) :: (breakLines rest).filter (· ≠ []) := by
    rw [lines, hraw, breakLines, if_neg (by decide), if_neg (fun h => absurd h.1 (by decide)), hfirst]
    rfl
  have hparse := TagMap.parse_unterminated (fun h => hback (hline.subset h)) ((breakLines rest).filter (· ≠ []))
  rw [frame?_eq, hlines]
  cases hp : TagMap.parse (('\\' :: line) :: (breakLines rest).filter (· ≠ [])) with
  | error e => rfl
  | ok tags => exact absurd hp (hparse tags)

/-- A block without line feeds is a line of its own: it is read first, and the groups of the other lines are read into it. -/
theorem frame?_encode {m : TagMap} (hm : m.Legible) (hf : '\n' ∉ m.encode) (t : Text) (received : Int) :
    (Packet.mk (m.encode ++ Sentence.lineBreak ++ t) received).frame? =
      match m.readGroups ((Packet.mk t received).lines.flatMap TagMap.groups) with
      | .ok tags => frameOf ((Sentence.find? m.encode).toList ++ (Packet.mk t received).sentences) (some tags)
      | .error _ => none := by
  have hparse : TagMap.parse ((m.encode ++ []) :: (Packet.mk t received).lines) = _ := hm.parse_encode_cons (by simp) _
  rw [List.append_nil] at hparse
  rw [frame?_eq, sentences_cons m.encode_ne_nil hf, lines_cons m.encode_ne_nil hf, hparse]
  cases m.readGroups ((Packet.mk t received).lines.flatMap TagMap.groups) with
  | ok tags => rfl
  | error e => rfl

end Packet

namespace Retagging

open Packet

/-- The own tags of a packet can be told apart in a block, and so can those of no block. -/
theorem legible_own {p : Packet} {f : Frame} (h : p.frame? = some f) : (f.tags.getD TagMap.empty).Legible := by
  obtain ⟨-, -, hparse⟩ := frame?_eq_some_iff.1 h
  cases ht : f.tags with
  | none => exact TagMap.legible_empty
  | some m => exact TagMap.legible_of_parse (ht ▸ hparse)

/-- The sentences that are found in the cropped lines of a packet. -/
def shownSentences (p : Packet) : List Text := (Sentence.crop false p.lines).filterMap Sentence.find?

/-- Leaving proprietary sentences out costs none of the sentences that are found. -/
theorem filterMap_find?_crop (p : Packet) (dropProprietary : Bool) :
    (Sentence.crop dropProprietary p.lines).filterMap Sentence.find? = shownSentences p := by
  have hline : ∀ line, (Sentence.cropLine dropProprietary line).bind Sentence.find? =
      (Sentence.cropLine false line).bind Sentence.find? := by
    intro line
    by_cases h : Sentence.Exposed line
    · rw [h.bind_find? dropProprietary, h.bind_find? false]
    · have hnone : ∀ d, (Sentence.cropLine d line).bind Sentence.find? = none := fun d =>
        (Sentence.bind_find?_cropLine d line).resolve_right fun e => h (Sentence.bind_find?_cropLine_eq_iff.1 e)
      rw [hnone dropProprietary, hnone false]
  rw [shownSentences, Sentence.crop, Sentence.crop, List.filterMap_filterMap, List.filterMap_filterMap, funext hline]

/-- All sentences of a packet are found in its cropped lines exactly if no line hides its sentence. -/
theorem shownSentences_eq_iff {p : Packet} : shownSentences p = p.sentences ↔ ∀ line ∈ p.lines, Sentence.Exposed line :=
  Sentence.filterMap_find?_crop_eq_iff

/-- The sentences of a packet that is cropped are those that are found in its cropped lines. -/
theorem sentences_join_crop (p : Packet) (dropProprietary : Bool) (received : Int) :
    (Packet.mk (Sentence.join (Sentence.crop dropProprietary p.lines)) received).sentences = shownSentences p := by
  rw [sentences, lines_join fun line hl => (Sentence.line_of_mem_crop hl).1, filterMap_find?_crop]

/-- The block of the empty map is too short for a sentence, and has no line feed. -/
theorem encode_empty : '\n' ∉ TagMap.empty.encode ∧ Sentence.find? TagMap.empty.encode = none := by decide

/-- The lines of the cropped lines of a packet behind the block of a map, which is a line unless the map is empty. -/
theorem lines_withBlock {m : TagMap} (hf : '\n' ∉ m.encode) (p : Packet) (dropProprietary : Bool) (received : Int) :
    (Packet.mk (withBlock m (Sentence.crop dropProprietary p.lines)) received).lines =
      (if m.isEmpty then [] else [m.encode]) ++ Sentence.crop dropProprietary p.lines := by
  have hcropped := lines_join (fun line (hl : line ∈ Sentence.crop dropProprietary p.lines) => (Sentence.line_of_mem_crop hl).1) received
  unfold withBlock
  split
  · exact hcropped
  · rw [lines_cons m.encode_ne_nil hf, hcropped]
    rfl

/-- The frame of the cropped lines of a packet behind the block of a map, which is left out if the map is empty: it has the sentences
of both and the tags of the map. -/
theorem frame?_withBlock {m : TagMap} (hm : m.Legible) (p : Packet) (dropProprietary : Bool) (received : Int) :
    (Packet.mk (withBlock m (Sentence.crop dropProprietary p.lines)) received).frame? =
      if '\n' ∈ m.encode then none
      else frameOf ((Sentence.find? m.encode).toList ++ shownSentences p) (if m.isEmpty then none else some m) := by
  have hcropped : ∀ line ∈ Sentence.crop dropProprietary p.lines, line ≠ [] ∧ '\n' ∉ line := fun line hl =>
    (Sentence.line_of_mem_crop hl).1
  have hlines := lines_join hcropped received
  have hgroups : (Sentence.crop dropProprietary p.lines).flatMap TagMap.groups = [] :=
    TagMap.flatMap_groups_eq_nil fun line hl => (Sentence.line_of_mem_crop hl).2
  unfold withBlock
  by_cases he : m.isEmpty = true
  · obtain ⟨hf, hs⟩ := encode_empty
    rw [if_pos he, if_pos he, TagMap.isEmpty_eq_true_iff.1 he, if_neg hf, hs, frame?_eq, hlines, TagMap.parse_eq, if_pos hgroups,
      sentences_join_crop]
    rfl
  · rw [if_neg he, if_neg he]
    split
    · rename_i hf
      rw [List.append_assoc]
      exact frame?_lineFeed hm hf _ _
    · rename_i hf
      rw [frame?_encode hm hf, hlines, hgroups, sentences_join_crop]
      rfl

/-- A rewritten packet that has a frame has the tags that were written, if there were any. -/
theorem tags_of_frame?_withBlock {m : TagMap} (hm : m.Legible) {p : Packet} {dropProprietary : Bool} {received : Int} {g : Frame}
    (h : (Packet.mk (withBlock m (Sentence.crop dropProprietary p.lines)) received).frame? = some g) :
    g.tags = if m.isEmpty then none else some m := by
  rw [frame?_withBlock hm] at h
  split at h
  · cases h
  · exact tags_of_frameOf h

end Retagging
end VesselTraffic
