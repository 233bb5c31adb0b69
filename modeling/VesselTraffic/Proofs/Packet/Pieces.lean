import VesselTraffic.Proofs.Packet.Cropping

/-!
# The pieces that lines are cropped to

Cropping said without the scanners. A line is `Marked` at its first exclamation mark or, if it has none, at its first dollar sign, and its
piece reaches from the mark to the second character behind the next star (`PieceOf`). A line is cropped to its piece if it has one
(`cropLine_false_eq_some_iff`). Where proprietary sentences are left out, the pieces that start with a dollar sign and a P are left out
and no others (`cropLine_true_eq`), although only lines without an exclamation mark are looked at for them. The laws of cropping follow
(`cropping_laws`).
-/

namespace VesselTraffic.Sentence

/-- A line with its start mark and what is behind it: the mark is the first exclamation mark or, in a line without one, the first dollar
sign. -/
inductive Marked : (line : Text) → (mark : Char) → (behind : Text) → Prop where
  | exclamation {front behind : Text} (first : '!' ∉ front) : Marked (front ++ '!' :: behind) '!' behind
  | dollar {front behind : Text} (first : '$' ∉ front) (lacking : '!' ∉ front ++ '$' :: behind) :
    Marked (front ++ '$' :: behind) '$' behind

/-- The piece of a line from its start mark to the second character behind the first star that follows the mark. -/
inductive PieceOf (line : Text) : (piece : Text) → Prop where
  | mk {between rest : Text} {mark x y : Char} (start : Marked line mark (between ++ '*' :: x :: y :: rest)) (star : '*' ∉ between) :
    PieceOf line (mark :: (between ++ ['*', x, y]))

/-- A piece that is a proprietary sentence. -/
def proprietary (piece : Text) : Bool := ['$', 'P'].isPrefixOf piece

/-- The mark of a line is an exclamation mark, or a dollar sign in a line without exclamation marks. -/
theorem Marked.mark_eq {line behind : Text} {mark : Char} (h : Marked line mark behind) : mark = '!' ∨ mark = '$' ∧ '!' ∉ line := by
  cases h with
  | exclamation first => exact Or.inl rfl
  | dollar first lacking => exact Or.inr ⟨rfl, lacking⟩

/-- What is behind the mark of a line ends the line. -/
theorem Marked.suffix {line behind : Text} {mark : Char} (h : Marked line mark behind) : mark :: behind <:+ line := by
  cases h with
  | @exclamation front behind first => exact ⟨front, rfl⟩
  | @dollar front behind first lacking => exact ⟨front, rfl⟩

/-- A line without an exclamation mark is cropped from its first dollar sign on. -/
theorem fromMark_false_of_not_mem {line : Text} (h : '!' ∉ line) : fromMark false line = Text.fromFirst '$' line := by
  rw [fromMark_of_not_mem h, if_neg]
  exact fun hdrop => absurd hdrop.1 Bool.false_ne_true

/-- A line is cropped from its mark on. -/
theorem fromMark_false_eq_iff {line behind : Text} {mark : Char} : fromMark false line = mark :: behind ↔ Marked line mark behind := by
  constructor
  · intro h
    by_cases hm : '!' ∈ line
    · obtain ⟨front, rest, rfl, hfront, hfrom⟩ := Text.exists_fromFirst hm
      rw [fromMark_of_mem hm, hfrom] at h
      obtain ⟨rfl, rfl⟩ := List.cons.inj h
      exact .exclamation hfront
    · rw [fromMark_false_of_not_mem hm] at h
      have hd : '$' ∈ line := by
        refine Classical.byContradiction fun hd => ?_
        rw [Text.fromFirst_of_not_mem hd] at h
        cases h
      obtain ⟨front, rest, rfl, hfront, hfrom⟩ := Text.exists_fromFirst hd
      rw [hfrom] at h
      obtain ⟨rfl, rfl⟩ := List.cons.inj h
      exact .dollar hfront hm
  · intro h
    cases h with
    | exclamation first =>
      rw [fromMark_of_mem (by simp), Text.fromFirst_append_of_not_mem first, Text.fromFirst_cons_self]
    | dollar first lacking =>
      rw [fromMark_false_of_not_mem lacking, Text.fromFirst_append_of_not_mem first, Text.fromFirst_cons_self]

/-- A line is cropped to its piece. -/
theorem cropLine_false_eq_some_iff {line piece : Text} : cropLine false line = some piece ↔ PieceOf line piece := by
  rw [cropLine_eq_some_iff]
  constructor
  · rintro ⟨head, x, y, rest, hfrom, hstar, rfl⟩
    cases head with
    | nil =>
      -- The mark is no star.
      rcases (fromMark_false_eq_iff.1 hfrom).mark_eq with hmark | ⟨hmark, -⟩
      · exact absurd hmark (by decide)
      · exact absurd hmark (by decide)
    | cons mark between =>
      exact .mk (fromMark_false_eq_iff.1 hfrom) fun hm => hstar (List.mem_cons_of_mem mark hm)
  · intro h
    cases h with
    | @mk between rest mark x y start star =>
      refine ⟨mark :: between, x, y, rest, fromMark_false_eq_iff.2 start, ?_, rfl⟩
      rw [List.mem_cons, not_or]
      refine ⟨?_, star⟩
      rcases start.mark_eq with rfl | ⟨rfl, -⟩
      · decide
      · decide

/-- The piece of a line is a piece of it. -/
theorem PieceOf.isInfix {line piece : Text} (h : PieceOf line piece) : piece <:+: line := by
  cases h with
  | @mk between rest mark x y start star =>
    have hfront : mark :: (between ++ ['*', x, y]) <+: mark :: (between ++ '*' :: x :: y :: rest) := ⟨rest, by simp⟩
    exact hfront.isInfix.trans start.suffix.isInfix

/-- The piece of a line starts with a mark, and has no exclamation mark if that is a dollar sign. -/
theorem PieceOf.head? {line piece : Text} (h : PieceOf line piece) : piece.head? = some '!' ∨ piece.head? = some '$' ∧ '!' ∉ piece := by
  have hpiece := h.isInfix
  cases h with
  | mk start star =>
    rcases start.mark_eq with rfl | ⟨rfl, hlacking⟩
    · exact Or.inl rfl
    · exact Or.inr ⟨rfl, fun hm => hlacking (hpiece.subset hm)⟩

/-- Proprietary sentences are left out by the start of their pieces. -/
theorem fromMark_true_eq (line : Text) :
    fromMark true line = if ['$', 'P'] <+: fromMark false line then [] else fromMark false line := by
  by_cases hm : '!' ∈ line
  · obtain ⟨front, rest, -, -, hfrom⟩ := Text.exists_fromFirst hm
    rw [fromMark_of_mem hm, fromMark_of_mem hm, hfrom, if_neg]
    exact fun hprefix => absurd (List.cons_prefix_cons.1 hprefix).1 (by decide)
  · rw [fromMark_false_of_not_mem hm, fromMark_of_not_mem hm]
    simp only [true_and]

/-- Where proprietary sentences are left out, a line is cropped to its piece unless that is one. -/
theorem cropLine_true_eq (line : Text) : cropLine true line = (cropLine false line).filter fun piece => !proprietary piece := by
  refine Option.ext fun piece => ?_
  rw [Option.filter_eq_some_iff, Bool.not_eq_true', proprietary, cropLine_false_eq_some_iff, cropLine_eq_some_iff, fromMark_true_eq]
  constructor
  · rintro ⟨head, x, y, rest, hfrom, hstar, rfl⟩
    split at hfrom
    · exact absurd hfrom (by simp)
    · rename_i hkept
      have hpiece : PieceOf line (head ++ ['*', x, y]) :=
        cropLine_false_eq_some_iff.1 (cropLine_eq_some_iff.2 ⟨head, x, y, rest, hfrom, hstar, rfl⟩)
      refine ⟨hpiece, Bool.eq_false_iff.2 fun hprefix => hkept ?_⟩
      rw [hfrom]
      exact (List.isPrefixOf_iff_prefix.1 hprefix).trans ⟨rest, by simp⟩
  · rintro ⟨hpiece, hkept⟩
    obtain ⟨head, x, y, rest, hfrom, hstar, rfl⟩ := cropLine_eq_some_iff.1 (cropLine_false_eq_some_iff.2 hpiece)
    refine ⟨head, x, y, rest, ?_, hstar, rfl⟩
    rw [if_neg, hfrom]
    rw [hfrom]
    -- The piece is longer than what is looked for at its start.
    have hshort : ['$', 'P'].length ≤ (head ++ ['*', x, y]).length := by simp
    have hpre : head ++ ['*', x, y] <+: head ++ '*' :: x :: y :: rest := ⟨rest, by simp⟩
    exact fun hstart => Bool.eq_false_iff.1 hkept
      (List.isPrefixOf_iff_prefix.2 (List.prefix_of_prefix_length_le hstart hpre hshort))

/-- A line is cropped to its piece, or to nothing. -/
theorem crop_singleton (dropProprietary : Bool) (line : Text) : crop dropProprietary [line] = (cropLine dropProprietary line).toList := by
  rw [crop, filterMap_cons_eq_append]
  exact List.append_nil _

/-- What a line is cropped to is its piece, whether proprietary sentences are left out or not. -/
theorem pieceOf_of_cropLine {dropProprietary : Bool} {line piece : Text} (h : cropLine dropProprietary line = some piece) :
    PieceOf line piece := by
  cases dropProprietary with
  | false => exact cropLine_false_eq_some_iff.1 h
  | true =>
    rw [cropLine_true_eq, Option.filter_eq_some_iff] at h
    exact cropLine_false_eq_some_iff.1 h.1

/-- The laws of cropping.

* Cropped lines are not cropped any further.
* Leaving proprietary sentences out takes from the cropped lines those that start with a dollar sign and a P, in order.
* Each line contributes by itself, and what it contributes is a piece of it that starts with an exclamation mark, or with a dollar sign
  and then has no exclamation mark, and whose first star is its third character from the end.
* With proprietary sentences a line contributes exactly one piece if it has a start mark and behind it a star whose first occurrence is
  followed by two more characters; and that piece is the one from the mark to these two characters. -/
theorem cropping_laws (lines : List Text) (dropProprietary : Bool) :
    crop dropProprietary (crop dropProprietary lines) = crop dropProprietary lines ∧
      crop true lines = (crop false lines).filter (fun piece => !proprietary piece) ∧
      crop dropProprietary lines = lines.flatMap (fun line => crop dropProprietary [line]) ∧
      (∀ line, ∀ piece ∈ crop dropProprietary [line], piece <:+: line ∧
        (piece.head? = some '!' ∨ piece.head? = some '$' ∧ '!' ∉ piece) ∧
        ∃ front x y, piece = front ++ ['*', x, y] ∧ '*' ∉ front) ∧
      (∀ line, (crop false [line]).length = 1 ↔
        ∃ mark between x y rest, Marked line mark (between ++ '*' :: x :: y :: rest) ∧ '*' ∉ between) ∧
      ∀ line piece, crop false [line] = [piece] ↔ PieceOf line piece := by
  have hpiece : ∀ line piece, crop false [line] = [piece] ↔ PieceOf line piece := by
    intro line piece
    rw [crop_singleton, ← cropLine_false_eq_some_iff]
    cases cropLine false line <;> simp
  refine ⟨crop_crop dropProprietary lines, ?_, ?_, ?_, ?_, hpiece⟩
  · rw [crop, crop, List.filter_filterMap]
    exact List.filterMap_congr fun line _ => cropLine_true_eq line
  · rw [crop, List.filterMap_eq_flatMap_toList]
    exact congrArg (lines.flatMap ·) (funext fun line => (crop_singleton dropProprietary line).symm)
  · intro line piece hmem
    rw [crop_singleton, Option.mem_toList] at hmem
    have h := pieceOf_of_cropLine hmem
    obtain ⟨head, x, y, -, -, hstar, rfl⟩ := cropLine_eq_some_iff.1 hmem
    exact ⟨h.isInfix, h.head?, head, x, y, rfl, hstar⟩
  · intro line
    rw [List.length_eq_one_iff]
    constructor
    · rintro ⟨piece, h⟩
      cases (hpiece line piece).1 h with
      | @mk between rest mark x y start star => exact ⟨mark, between, x, y, rest, start, star⟩
    · rintro ⟨mark, between, x, y, rest, start, star⟩
      exact ⟨_, (hpiece line _).2 (.mk start star)⟩

/-- An exclamation mark wins over a dollar sign in front of it, also over one that would start a proprietary sentence. -/
example : crop true ["$PAB!CD*1E*2F".toList, "$PAB*1E".toList, "x$GP$P*1".toList, "$!*1".toList] = ["!CD*1E".toList] := by decide

end VesselTraffic.Sentence
