import VesselTraffic.Proofs.TagBlock.Edits

/-!
# Corrupted blocks

A checksum tells texts apart that differ in one character: the exclusive or of their code points differs in what the two characters
differ in (`codeSum_append_cons`), and a number can be read back from its hexadecimal digits, however many there are
(`readHex_upperHex`). If a character of the fields of a block is replaced by one that is no backslash, the group of the line still
reaches to the backslash behind the checksum, and its last star is still the one in front of the checksum, even if the new character is
a star. So the corruption is always detected, and by the checksum (`parse_corrupted_run`).
-/

namespace VesselTraffic

/-! ## Hexadecimal numbers -/

namespace Text

/-- The number that hexadecimal digits stand for; other characters count as zeros. -/
def readHex (t : Text) : Nat := t.foldl (fun n c => n * 16 + (hexValue? c).getD 0) 0

/-- One more digit behind others. -/
theorem readHex_concat (t : Text) (c : Char) : readHex (t ++ [c]) = readHex t * 16 + (hexValue? c).getD 0 := by
  rw [readHex, List.foldl_append]
  rfl

/-- Zeros in front of digits do not count. -/
theorem readHex_replicate_zero (k : Nat) (t : Text) : readHex (List.replicate k '0' ++ t) = readHex t := by
  induction k with
  | zero => rfl
  | succ k ih => exact ih

/-- The value of an upper-case digit. -/
theorem hexValue?_toUpper_digitChar {d : Nat} (h : d < 16) : hexValue? d.digitChar.toUpper = some d := by
  have all : ∀ i < 16, hexValue? (Nat.digitChar i).toUpper = some i := by decide
  exact all d h

/-- A number is read back from its digits in upper case. -/
theorem readHex_toDigits (n : Nat) : readHex ((Nat.toDigits 16 n).map Char.toUpper) = n := by
  induction n using Nat.strongRecOn with
  | ind n ih =>
    rw [Nat.toDigits_eq_if (by decide)]
    split
    · rename_i hn
      have hone : readHex [n.digitChar.toUpper] = 0 * 16 + (hexValue? n.digitChar.toUpper).getD 0 := rfl
      rw [List.map_singleton, hone, hexValue?_toUpper_digitChar hn]
      exact Nat.zero_add n
    · rw [List.map_append, List.map_singleton, readHex_concat, ih (n / 16) (by omega),
        hexValue?_toUpper_digitChar (Nat.mod_lt n (by decide))]
      exact Nat.div_add_mod' n 16

/-- A number is read back from its hexadecimal text, whatever the width of the text. -/
theorem readHex_upperHex (width n : Nat) : readHex (upperHex width n) = n := by
  rw [upperHex, padLeft, readHex_replicate_zero, readHex_toDigits]

/-- The exclusive or of the code points of a text. -/
def codeSum (t : Text) : Nat := t.foldl (fun sum c => sum ^^^ c.toNat) 0

/-- The sum of the code points of a text behind some others. -/
theorem foldl_xor_eq (t : Text) (n : Nat) : t.foldl (fun sum c => sum ^^^ c.toNat) n = n ^^^ codeSum t := by
  induction t generalizing n with
  | nil => exact (Nat.xor_zero n).symm
  | cons c rest ih =>
    have hcons : codeSum (c :: rest) = 0 ^^^ c.toNat ^^^ codeSum rest := ih (0 ^^^ c.toNat)
    rw [List.foldl_cons, ih, hcons, Nat.zero_xor, Nat.xor_assoc]

/-- A character counts as much in the sum of a text wherever it stands. -/
theorem codeSum_append_cons (a b : Text) (c : Char) : codeSum (a ++ c :: b) = codeSum (a ++ b) ^^^ c.toNat := by
  have hsplit : ∀ t : Text, codeSum (a ++ t) = codeSum a ^^^ codeSum t := by
    intro t
    rw [codeSum, List.foldl_append]
    exact foldl_xor_eq t (codeSum a)
  have hcons : codeSum (c :: b) = c.toNat ^^^ codeSum b := by
    rw [codeSum, List.foldl_cons, foldl_xor_eq, Nat.zero_xor]
  rw [hsplit, hsplit, hcons, Nat.xor_comm c.toNat, Nat.xor_assoc]

end Text

/-! ## One character -/

/-- Texts with the same checksum have the same sum of code points. -/
theorem codeSum_eq_of_checksum_eq {t u : Text} (h : checksum t = checksum u) : Text.codeSum t = Text.codeSum u := by
  have hread := congrArg Text.readHex h
  rw [checksum, checksum, Text.readHex_upperHex, Text.readHex_upperHex] at hread
  exact hread

/-- Texts that differ in one character have different checksums. -/
theorem checksum_set_ne {t : Text} {i : Nat} {x c : Char} (hx : t[i]? = some x) (hc : c ≠ x) : checksum (t.set i c) ≠ checksum t := by
  obtain ⟨hi, hxi⟩ := List.getElem?_eq_some_iff.1 hx
  have hbefore : t.take i ++ x :: t.drop (i + 1) = t := by
    rw [← hxi, List.cons_getElem_drop_succ, List.take_append_drop]
  have hafter : t.set i c = t.take i ++ c :: t.drop (i + 1) := List.set_eq_take_append_cons_drop.trans (if_pos hi)
  intro h
  have hsum : Text.codeSum (t.take i ++ c :: t.drop (i + 1)) = Text.codeSum (t.take i ++ x :: t.drop (i + 1)) := by
    rw [hbefore, ← hafter]
    exact codeSum_eq_of_checksum_eq h
  rw [Text.codeSum_append_cons, Text.codeSum_append_cons] at hsum
  exact hc (Char.toNat_inj.1 (Nat.xor_right_inj.1 hsum))

namespace TagMap

/-! ## Corrupted lines -/

/-- The first group of a line that starts with a closed one is read before all other groups. -/
theorem parse_of_readGroup_eq_error {inside : Text} (h : '\\' ∉ inside) {e : TagFault} (he : empty.readGroup (.closed inside) = .error e)
    (rest : Text) (lines : List Text) : parse (('\\' :: (inside ++ '\\' :: rest)) :: lines) = .error e := by
  obtain ⟨gs, behind⟩ := exists_opens ('\\' :: (inside ++ '\\' :: rest)) rest
  rw [parse_eq, List.flatMap_cons, groups_eq_iff.2 (.closed h behind), List.cons_append, if_neg (List.cons_ne_nil _ _), readGroups, he]
  rfl

/-- A block with a corrupted character among its fields: they are followed by the checksum as it was. -/
theorem encode_set (m : TagMap) {i : Nat} (hi : i < m.body.length) (c : Char) (rest : Text) :
    m.encode.set (i + 1) c ++ rest = '\\' :: ((m.body.set i c ++ '*' :: checksum m.body) ++ '\\' :: rest) := by
  have hencode : m.encode = '\\' :: (m.body ++ ('*' :: checksum m.body ++ ['\\'])) := by simp [encode]
  rw [hencode, List.set_cons_succ, List.set_append_left _ _ hi]
  simp

/-- A line that starts with the block of a legible map in which a character of the fields was replaced by another one, which is no
backslash, is not parsed, whatever follows: the checksum tells. -/
theorem Legible.parse_corrupted {m : TagMap} (h : m.Legible) {i : Nat} {x c : Char} (hx : m.body[i]? = some x) (hc : c ≠ x)
    (hb : c ≠ '\\') (rest : Text) (lines : List Text) :
    parse ((m.encode.set (i + 1) c ++ rest) :: lines) =
      .error (.checksumMismatch (m.body.set i c ++ '*' :: checksum m.body) (checksum (m.body.set i c)) (checksum m.body)) := by
  have hstar : '*' ∉ checksum m.body := not_mem_checksum (by decide) m.body
  have hbody : '\\' ∉ m.body.set i c := fun hmem =>
    (List.mem_or_eq_of_mem_set hmem).elim h.backslash_not_mem_body fun e => hb e.symm
  have hinside : '\\' ∉ m.body.set i c ++ '*' :: checksum m.body := by
    rw [List.mem_append, List.mem_cons, not_or, not_or]
    exact ⟨hbody, by decide, not_mem_checksum (by decide) m.body⟩
  have hread : empty.readGroup (.closed (m.body.set i c ++ '*' :: checksum m.body)) =
      .error (.checksumMismatch (m.body.set i c ++ '*' :: checksum m.body) (checksum (m.body.set i c)) (checksum m.body)) := by
    rw [readGroup, Text.cutLast_append _ hstar]
    exact if_pos fun hsame => checksum_set_ne hx hc (hsame.symm.trans (upper_checksum m.body))
  rw [m.encode_set (List.getElem?_eq_some_iff.1 hx).1]
  exact parse_of_readGroup_eq_error hinside hread rest lines

/-- A corrupted character is always detected. If in the block of a map that edits lead to one character between the opening backslash and
the star in front of the checksum is replaced by another one that is no backslash, then a line that starts with the block is not parsed,
whatever else it holds and whatever lines follow, because the checksum of the corrupted fields is not the one that the block gives. -/
theorem parse_corrupted_run (edits : List Edit) (slot : Nat) {i : Nat} {x c : Char} (hx : (Edit.run edits slot).body[i]? = some x)
    (hc : c ≠ x) (hb : c ≠ '\\') :
    let m := Edit.run edits slot
    ∀ (rest : Text) (lines : List Text), parse ((m.encode.set (i + 1) c ++ rest) :: lines) =
      .error (.checksumMismatch (m.body.set i c ++ '*' :: checksum m.body) (checksum (m.body.set i c)) (checksum m.body)) :=
  fun rest lines => (legible_run edits slot).parse_corrupted hx hc hb rest lines

/-- The colon of a field becomes a star, so that the last field has no colon and the group has two stars. -/
theorem parse_corrupted_run_star :
    (Edit.run [.add 0 (some ['c']) (.ok ['5']), .copy 0 1] 1).encode = "\\c:5*6C\\".toList ∧
      parse ["\\c*5*6C\\!AIVDM,1,1,,A,0,0*26".toList] =
        .error (.checksumMismatch "c*5*6C".toList "7C".toList "6C".toList) :=
  ⟨by decide +kernel, @parse_corrupted_run [.add 0 (some ['c']) (.ok ['5']), .copy 0 1] 1 1 ':' '*' (by decide +kernel) (by decide)
    (by decide) "!AIVDM,1,1,,A,0,0*26".toList []⟩

end TagMap
end VesselTraffic
