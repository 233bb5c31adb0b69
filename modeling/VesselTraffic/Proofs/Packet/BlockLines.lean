import VesselTraffic.Proofs.Packet.TaggingRoundTrip
import VesselTraffic.Proofs.TagBlock.Corruption

/-!
# Blocks as lines

A block is written to stand on a line of its own or in front of a sentence, and the checks on keys and values are to see to that. They
keep backslashes out, so a block has its two delimiters and no backslash else (`Legible.count_backslash`). They do not keep out line
feeds, nor characters with code points that take more than two hexadecimal digits: the one breaks the line and costs the packet its frame,
the other makes the checksum longer. `encode_run_line_iff` says that nothing else goes wrong, and `encode_run_line_false` has an input for
each of the two.
-/

namespace VesselTraffic

namespace Text

/-- A number has at most two hexadecimal digits exactly if it is below 256. -/
theorem length_upperHex_two_iff {n : Nat} : (upperHex 2 n).length = 2 ↔ n < 256 := by
  have hdigits : (Nat.toDigits 16 n).length ≤ 2 ↔ n < 16 ^ 2 := Nat.length_toDigits_le_iff (by decide) (by decide)
  rw [upperHex, padLeft, List.length_append, List.length_replicate, List.length_map]
  omega

end Text

/-- A text ends as a block does: in a star, two upper-case hexadecimal digits and a backslash. -/
def EndsInChecksum (t : Text) : Prop :=
  ∃ front x y, t = front ++ ['*', x, y, '\\'] ∧ x ∈ Text.upperHexDigits ∧ y ∈ Text.upperHexDigits

namespace TagMap

/-- The only backslashes of the block of a legible map are its first and its last character. -/
theorem Legible.count_backslash {m : TagMap} (h : m.Legible) :
    m.encode.count '\\' = 2 ∧ m.encode.head? = some '\\' ∧ m.encode.getLast? = some '\\' := by
  have hbody : m.body.count '\\' = 0 := List.count_eq_zero.2 h.backslash_not_mem_body
  have hsum : (checksum m.body).count '\\' = 0 := List.count_eq_zero.2 (not_mem_checksum (by decide) m.body)
  refine ⟨?_, rfl, List.getLast?_concat⟩
  simp [encode, List.count_append, hbody, hsum]

/-- A block ends in two digits exactly if the sum of the code points of its fields is below 256. -/
theorem endsInChecksum_encode_iff (m : TagMap) : EndsInChecksum m.encode ↔ Text.codeSum m.body < 256 := by
  have hstar : '*' ∉ checksum m.body := not_mem_checksum (by decide) m.body
  have hsum : checksum m.body = Text.upperHex 2 (Text.codeSum m.body) := rfl
  have hencode : m.encode = ('\\' :: m.body ++ '*' :: checksum m.body) ++ ['\\'] := rfl
  rw [← Text.length_upperHex_two_iff, ← hsum]
  constructor
  · rintro ⟨front, x, y, e, hx, hy⟩
    have e' : ('\\' :: m.body ++ '*' :: checksum m.body) ++ ['\\'] = (front ++ '*' :: [x, y]) ++ ['\\'] := by
      rw [← hencode, e]
      simp
    have hdigits : '*' ∉ [x, y] := by
      intro hmem
      rcases List.mem_pair.1 hmem with rfl | rfl
      · exact absurd hx (by decide)
      · exact absurd hy (by decide)
    -- Both sides are cut at their last star.
    have hcut := congrArg (Text.cutLast '*') (List.append_cancel_right e')
    rw [Text.cutLast_append _ hstar, Text.cutLast_append _ hdigits] at hcut
    rw [(Prod.mk.inj (Option.some.inj hcut)).2]
    rfl
  · intro hlength
    obtain ⟨x, y, hxy⟩ := List.length_eq_two.1 hlength
    refine ⟨'\\' :: m.body, x, y, ?_, mem_checksum (t := m.body) ?_, mem_checksum (t := m.body) ?_⟩
    · rw [hencode, hxy]
      simp
    · simp [hxy]
    · simp [hxy]

/-- A packet of a block and a line with a sentence has the tags of the block unless these have a line feed, which costs it its frame. -/
theorem Legible.tags?_encode_line {m : TagMap} (h : m.Legible) {line : Text} (hline : '\n' ∉ line) (hfront : line.head? ≠ some '\\')
    (hsentence : ∃ s, Sentence.IsSentence s ∧ s <:+: line) (received : Int) :
    (Packet.mk (m.encode ++ Sentence.lineBreak ++ line) received).tags? = if '\n' ∈ m.encode then none else some m := by
  split
  · rename_i hf
    rw [Packet.tags?, List.append_assoc, Packet.frame?_lineFeed h hf]
    rfl
  · rename_i hf
    obtain ⟨s, hs, hin⟩ := hsentence
    exact Packet.tags?_encode h hf hline hfront (Sentence.find?_ne_none hs hin) received

open Edit

/-- When a block is one line of the form that a tag block has. A map that edits lead to, such as additions of texts, integers and times to
an empty one, of which those that are refused change nothing, is written between two backslashes with no other one in between. It has no
line feed exactly if its keys and values have none, and it ends in a star, two upper-case hexadecimal digits and the closing backslash
exactly if the exclusive or of the code points of its fields is below 256. The packet of the block and, behind a line break, a line with
a sentence and without a block of its own has that very map, exactly if the block has no line feed; otherwise it has no block at all. -/
theorem encode_run_line_iff (edits : List Edit) (slot : Nat) {line : Text} (hline : '\n' ∉ line) (hfront : line.head? ≠ some '\\')
    (hsentence : ∃ s, Sentence.IsSentence s ∧ s <:+: line) (received : Int) :
    let m := run edits slot
    (m.encode.count '\\' = 2 ∧ m.encode.head? = some '\\' ∧ m.encode.getLast? = some '\\') ∧
      ('\n' ∉ m.encode ↔ ∀ t ∈ m.entries, '\n' ∉ t.1 ∧ '\n' ∉ t.2) ∧
      (EndsInChecksum m.encode ↔ Text.codeSum m.body < 256) ∧
      (Packet.mk (m.encode ++ Sentence.lineBreak ++ line) received).tags? = if '\n' ∈ m.encode then none else some m := by
  intro m
  have h : m.Legible := legible_run edits slot
  refine ⟨h.count_backslash, ?_, endsInChecksum_encode_iff m, h.tags?_encode_line hline hfront hsentence received⟩
  rw [mem_encode_iff (by decide)]
  simp only [not_exists, not_and, not_or]

/-- Two additions, one that is refused and one with stars, colons and a carriage return. -/
theorem encode_run_line_carriage_return :
    let m := run [.add 0 (some ['s']) (.ok "a\\b".toList), .add 0 (some ['x']) (.ok "*:\rÿ".toList), .addTimestamp 0 (-1)] 0
    m.entries = [(['x'], "*:\rÿ".toList), (['c'], "-1".toList)] ∧ '\n' ∉ m.encode ∧ EndsInChecksum m.encode ∧
      (Packet.mk (m.encode ++ Sentence.lineBreak ++ "$!AIVDM,1,1,,A,0,0*26".toList) 0).tags? = some m := by
  intro m
  have hsentence : Sentence.IsSentence "!AIVDM,1,1,,A,0,0*26".toList :=
    @Sentence.IsSentence.mk 'A' 'I' 'V' 'D' 'M' '2' '6' "1,1,,A,0,0".toList (by decide) (by decide) (by decide)
  have hline : '\n' ∉ "$!AIVDM,1,1,,A,0,0*26".toList := by decide
  have hentries : m.entries = [(['x'], "*:\rÿ".toList), (['c'], "-1".toList)] := by decide +kernel
  obtain ⟨-, hfeed, hdigits, htags⟩ := encode_run_line_iff
    [.add 0 (some ['s']) (.ok "a\\b".toList), .add 0 (some ['x']) (.ok "*:\rÿ".toList), .addTimestamp 0 (-1)] 0
    hline (by decide) ⟨_, hsentence, ['$'], [], by decide⟩ 0
  have hnone : '\n' ∉ m.encode := hfeed.2 (by rw [hentries]; decide)
  refine ⟨hentries, hnone, hdigits.2 (by decide +kernel), ?_⟩
  rw [htags, if_neg hnone]

/-- A block is not always one line with a checksum of two digits: a value with a line feed is accepted and costs the packet its block, and
a value with a character from 256 on is accepted and has a checksum of three digits. -/
theorem encode_run_line_false :
    (∃ m : TagMap, m = run [.add 0 (some ['x']) (.ok ['a', '\n', 'b'])] 0 ∧ m.entries = [(['x'], ['a', '\n', 'b'])] ∧
      '\n' ∈ m.encode ∧ (Packet.mk (m.encode ++ Sentence.lineBreak ++ "!AIVDM,1,1,,A,0,0*26".toList) 0).tags? = none) ∧
    ∃ m : TagMap, m = run [.add 0 (some ['x']) (.ok ['Ā'])] 0 ∧ m.encode = "\\x:Ā*142\\".toList ∧ ¬EndsInChecksum m.encode := by
  refine ⟨⟨_, rfl, by decide +kernel, by decide +kernel, by decide +kernel⟩, _, rfl, by decide +kernel, fun hends => ?_⟩
  exact absurd ((endsInChecksum_encode_iff _).1 hends) (by decide +kernel)

end TagMap
end VesselTraffic
