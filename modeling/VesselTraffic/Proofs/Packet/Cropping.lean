import Mathlib.Data.List.Basic
import VesselTraffic.Packet.Crop
import VesselTraffic.Proofs.Packet.Sentences

/-!
# What cropping does to sentences

Cropping looks for the first exclamation mark of a line and the first star behind it, and the scanner for a whole sentence. The two
agree on a line exactly if no star stands between the first exclamation mark and the sentence (`Exposed`); on any other line the
sentence is lost (`bind_find?_cropLine_eq_iff`). Cropping never makes a sentence up: what is found in a cropped line is what is found in
the line. Cropped lines are not cropped any further (`crop_crop`).
-/

namespace VesselTraffic

namespace Text

/-- A text without a mark does not count for the part from the mark on. -/
theorem fromFirst_append_of_not_mem {c : Char} {a : Text} (h : c ∉ a) (t : Text) : fromFirst c (a ++ t) = fromFirst c t :=
  List.dropWhile_append_of_pos fun _ hx => bne_iff_ne.2 fun e => h (e ▸ hx)

/-- A text that starts with a mark is its part from the mark on. -/
theorem fromFirst_cons_self (c : Char) (t : Text) : fromFirst c (c :: t) = c :: t :=
  List.dropWhile_cons_of_neg (by simp)

/-- A text with a mark starts with characters that are not the mark, and its part from the mark on follows them. -/
theorem exists_fromFirst {c : Char} {t : Text} (h : c ∈ t) :
    ∃ a b, t = a ++ c :: b ∧ c ∉ a ∧ fromFirst c t = c :: b := by
  cases hcut : cutFirst c t with
  | none => exact absurd h (cutFirst_eq_none_iff.1 hcut)
  | some p =>
    obtain ⟨rfl, ha⟩ := cutFirst_eq_some (a := p.1) (b := p.2) hcut
    refine ⟨p.1, p.2, rfl, ha, ?_⟩
    rw [fromFirst_append_of_not_mem ha, fromFirst_cons_self]

/-- A text without a mark has no part from the mark on. -/
theorem fromFirst_of_not_mem {c : Char} {t : Text} (h : c ∉ t) : fromFirst c t = [] := by
  rw [← List.append_nil t, fromFirst_append_of_not_mem h]
  rfl

/-- The part of a text from a mark on stays so whatever follows the text. -/
theorem fromFirst_append_of_mem {c : Char} {a : Text} (h : c ∈ a) (t : Text) : fromFirst c (a ++ t) = fromFirst c a ++ t := by
  obtain ⟨front, back, rfl, hf, e⟩ := exists_fromFirst h
  rw [e, List.append_assoc, fromFirst_append_of_not_mem hf, List.cons_append, fromFirst_cons_self]

/-- The part of a text from a mark on stays so if the mark follows the text, even if the text has none. -/
theorem fromFirst_append_cons_self (c : Char) (a t : Text) : fromFirst c (a ++ c :: t) = fromFirst c a ++ c :: t := by
  by_cases h : c ∈ a
  · exact fromFirst_append_of_mem h (c :: t)
  · rw [fromFirst_append_of_not_mem h, fromFirst_of_not_mem h, fromFirst_cons_self]
    rfl

end Text

namespace Sentence

/-- A line with an exclamation mark is cropped from the first one on. -/
theorem fromMark_of_mem {line : Text} (h : '!' ∈ line) (dropProprietary : Bool) :
    fromMark dropProprietary line = Text.fromFirst '!' line := by
  obtain ⟨a, b, -, -, e⟩ := Text.exists_fromFirst h
  simp only [fromMark, e]

/-- What a line is cropped from is the end of it, and starts with a mark. -/
theorem fromMark_suffix (dropProprietary : Bool) (line : Text) :
    fromMark dropProprietary line <:+ line ∧
      ∀ c, (fromMark dropProprietary line).head? = some c → c = '!' ∨ c = '$' := by
  have hfirst : ∀ c d, (Text.fromFirst c line).head? = some d → d = c := by
    intro c d hd
    by_cases hm : c ∈ line
    · obtain ⟨a, b, -, -, e⟩ := Text.exists_fromFirst hm
      rw [e] at hd
      exact (Option.some.inj hd).symm
    · rw [Text.fromFirst_of_not_mem hm] at hd
      cases hd
  unfold fromMark
  split
  · split
    · rename_i rest e
      have hs : '$' :: 'P' :: rest <:+ line := e ▸ List.dropWhile_suffix _
      cases dropProprietary with
      | true => exact ⟨List.nil_suffix, fun c hc => by cases hc⟩
      | false => exact ⟨hs, fun c hc => Or.inr (Option.some.inj hc).symm⟩
    · exact ⟨List.dropWhile_suffix _, fun c hc => Or.inr (hfirst '$' c hc)⟩
  · exact ⟨List.dropWhile_suffix _, fun c hc => Or.inl (hfirst '!' c hc)⟩

/-- A line is cropped to what stands from its mark up to the second character behind the next star. -/
theorem cropLine_eq_some_iff {dropProprietary : Bool} {line piece : Text} :
    cropLine dropProprietary line = some piece ↔
      ∃ head x y rest, fromMark dropProprietary line = head ++ '*' :: x :: y :: rest ∧ '*' ∉ head ∧
        piece = head ++ ['*', x, y] := by
  constructor
  · intro h
    unfold cropLine at h
    split at h
    · rename_i head x y rest hcut
      obtain ⟨ht, hstar⟩ := Text.cutFirst_eq_some hcut
      exact ⟨head, x, y, rest, ht, hstar, (Option.some.inj h).symm⟩
    · cases h
  · rintro ⟨head, x, y, rest, ht, hstar, rfl⟩
    unfold cropLine
    rw [ht, Text.cutFirst_append _ hstar]

/-- What a line is cropped to is a piece of it that starts with a mark. -/
theorem infix_of_cropLine {dropProprietary : Bool} {line piece : Text} (h : cropLine dropProprietary line = some piece) :
    piece <:+: line ∧ ∃ c rest, piece = c :: rest ∧ (c = '!' ∨ c = '$') := by
  obtain ⟨head, x, y, rest, ht, hstar, rfl⟩ := cropLine_eq_some_iff.1 h
  obtain ⟨hsuffix, hmark⟩ := fromMark_suffix dropProprietary line
  rw [ht] at hsuffix hmark
  have hpre : head ++ ['*', x, y] <+: head ++ '*' :: x :: y :: rest := ⟨rest, by simp⟩
  refine ⟨hpre.isInfix.trans hsuffix.isInfix, ?_⟩
  cases head with
  | nil => exact absurd (hmark '*' rfl) (by decide)
  | cons c head => exact ⟨c, head ++ ['*', x, y], rfl, hmark c rfl⟩

/-- A line whose sentence is not hidden: no star stands between its first exclamation mark and the sentence. -/
def Exposed (line : Text) : Prop :=
  ∀ s, find? line = some s → ∃ before after, line = before ++ s ++ after ∧ '*' ∉ Text.fromFirst '!' before

/-- A line without an exclamation mark is cropped to nothing that has a sentence. -/
theorem bind_find?_cropLine_of_not_mem {line : Text} (h : '!' ∉ line) (dropProprietary : Bool) :
    (cropLine dropProprietary line).bind find? = none := by
  cases hc : cropLine dropProprietary line with
  | none => rfl
  | some piece => exact find?_of_mark_not_mem fun hm => h ((infix_of_cropLine hc).1.subset hm)

/-- The sentence of a line is that of its part from the first exclamation mark on. -/
theorem find?_fromFirst {line : Text} (h : '!' ∈ line) : find? (Text.fromFirst '!' line) = find? line := by
  obtain ⟨a, b, rfl, ha, e⟩ := Text.exists_fromFirst h
  rw [e, find?_append_of_mark_not_mem ha]

/-- What is found in a cropped line is what is found in the line, or nothing. -/
theorem bind_find?_cropLine (dropProprietary : Bool) (line : Text) :
    (cropLine dropProprietary line).bind find? = none ∨ (cropLine dropProprietary line).bind find? = find? line := by
  by_cases hm : '!' ∈ line
  · cases hc : cropLine dropProprietary line with
    | none => exact Or.inl rfl
    | some piece =>
      obtain ⟨head, x, y, rest, ht, hstar, rfl⟩ := cropLine_eq_some_iff.1 hc
      rw [fromMark_of_mem hm] at ht
      have hsplit : find? line = (find? (head ++ ['*', x, y])).or (find? ('*' :: x :: y :: rest)) := by
        rw [← find?_fromFirst hm, ht, find?_cut hstar]
      rw [Option.bind_some]
      cases hs : find? (head ++ ['*', x, y]) with
      | none => exact Or.inl rfl
      | some s =>
        rw [hsplit, hs]
        exact Or.inr rfl
  · exact Or.inl (bind_find?_cropLine_of_not_mem hm dropProprietary)

/-- A sentence that is found in a cropped line was not hidden. -/
theorem Exposed.of_cropLine {dropProprietary : Bool} {line : Text}
    (h : (cropLine dropProprietary line).bind find? = find? line) : Exposed line := by
  intro s hs
  have hm : '!' ∈ line := by
    refine Classical.byContradiction fun hm => ?_
    rw [find?_of_mark_not_mem hm] at hs
    cases hs
  rw [hs] at h
  obtain ⟨piece, hc, hfound⟩ := Option.bind_eq_some_iff.1 h
  obtain ⟨head, x, y, rest, ht, hstar, rfl⟩ := cropLine_eq_some_iff.1 hc
  obtain ⟨hform, before, after, e⟩ := isSentence_of_find? hfound
  obtain ⟨a, b, hline, ha, hfrom⟩ := Text.exists_fromFirst hm
  rw [fromMark_of_mem hm, hfrom] at ht
  -- The sentence has ten characters, so it starts well before the star that the line was cropped at.
  have hbefore : before <+: head := by
    have hb : before <+: head ++ ['*', x, y] := ⟨s ++ after, by simpa using e⟩
    have hlen := congrArg List.length e
    have hsl := hform.length
    simp only [List.length_append, List.length_cons, List.length_nil] at hlen
    exact List.prefix_of_prefix_length_le hb (List.prefix_append _ _) (by omega)
  refine ⟨a ++ before, after ++ rest, ?_, ?_⟩
  · have e' : head ++ '*' :: x :: y :: rest = before ++ s ++ after ++ rest := by rw [e]; simp
    rw [hline, ht, e']
    simp
  · rw [Text.fromFirst_append_of_not_mem ha]
    exact fun hs => hstar (hbefore.subset ((List.dropWhile_suffix _).subset hs))

/-- A sentence that is not hidden is found in the cropped line. -/
theorem Exposed.bind_find? {line : Text} (h : Exposed line) (dropProprietary : Bool) :
    (cropLine dropProprietary line).bind find? = find? line := by
  cases hs : find? line with
  | none =>
    rcases bind_find?_cropLine dropProprietary line with hn | he
    · exact hn
    · exact he.trans hs
  | some s =>
    obtain ⟨before, after, rfl, hstar⟩ := h s hs
    have hform := (isSentence_of_find? hs).1
    obtain ⟨front, x, y, rfl, hfront⟩ := hform.split
    have hm : '!' ∈ before ++ ('!' :: front ++ ['*', x, y]) ++ after := by simp
    have e : before ++ ('!' :: front ++ ['*', x, y]) ++ after = before ++ '!' :: (front ++ '*' :: x :: y :: after) := by simp
    -- The line is cropped to a piece that ends with the sentence, so something is found in it.
    have hcrop : cropLine dropProprietary (before ++ ('!' :: front ++ ['*', x, y]) ++ after) =
        some (Text.fromFirst '!' before ++ ('!' :: front) ++ ['*', x, y]) := by
      refine cropLine_eq_some_iff.2 ⟨Text.fromFirst '!' before ++ ('!' :: front), x, y, after, ?_, ?_, rfl⟩
      · rw [fromMark_of_mem hm, e, Text.fromFirst_append_cons_self]
        simp
      · rw [List.mem_append, not_or]
        exact ⟨hstar, hfront⟩
    rcases bind_find?_cropLine dropProprietary (before ++ ('!' :: front ++ ['*', x, y]) ++ after) with hn | he
    · rw [hcrop, Option.bind_some] at hn
      exact absurd hn (find?_ne_none hform ⟨Text.fromFirst '!' before, [], by simp⟩)
    · exact he.trans hs

/-- Cropping a line keeps its sentence exactly if it is not hidden. -/
theorem bind_find?_cropLine_eq_iff {dropProprietary : Bool} {line : Text} :
    (cropLine dropProprietary line).bind find? = find? line ↔ Exposed line :=
  ⟨Exposed.of_cropLine, fun h => h.bind_find? dropProprietary⟩

/-- What is picked from the first member comes before what is picked from the others. -/
theorem filterMap_cons_eq_append {α β : Type} (f : α → Option β) (a : α) (l : List α) :
    (a :: l).filterMap f = (f a).toList ++ l.filterMap f := by
  simp only [List.filterMap_eq_flatMap_toList, List.flatMap_cons]

/-- Who picks less from each member picks no more in all. -/
theorem length_filterMap_le_of_less {α β : Type} {f g : α → Option β} (h : ∀ a, g a = none ∨ g a = f a) (l : List α) :
    (l.filterMap g).length ≤ (l.filterMap f).length := by
  induction l with
  | nil => exact Nat.le_refl _
  | cons a rest ih =>
    rw [filterMap_cons_eq_append, filterMap_cons_eq_append, List.length_append, List.length_append]
    rcases h a with ha | ha
    · rw [ha, Option.toList_none, List.length_nil]
      omega
    · rw [ha]
      omega

/-- Two ways of picking, one of which may only pick less, pick the same from a list exactly if they do from each member. -/
theorem filterMap_eq_filterMap_iff {α β : Type} {f g : α → Option β} (h : ∀ a, g a = none ∨ g a = f a) {l : List α} :
    l.filterMap g = l.filterMap f ↔ ∀ a ∈ l, g a = f a := by
  constructor
  · intro e
    induction l with
    | nil => exact fun a ha => absurd ha List.not_mem_nil
    | cons a rest ih =>
      rw [filterMap_cons_eq_append, filterMap_cons_eq_append] at e
      have ha : g a = f a := by
        rcases h a with ha | ha
        · -- What was not picked here cannot be made up for by the rest.
          rw [ha, Option.toList_none, List.nil_append] at e
          have hlen := congrArg List.length e
          have hle := length_filterMap_le_of_less h rest
          rw [List.length_append] at hlen
          cases hf : f a with
          | none => exact ha
          | some b =>
            rw [hf, Option.toList_some, List.length_singleton] at hlen
            omega
        · exact ha
      rw [ha] at e
      exact List.forall_mem_cons.2 ⟨ha, ih (List.append_cancel_left e)⟩
  · exact fun e => List.filterMap_congr e

/-- The sentences of cropped lines are those of the lines exactly if no line hides its sentence. -/
theorem filterMap_find?_crop_eq_iff {dropProprietary : Bool} {lines : List Text} :
    (crop dropProprietary lines).filterMap find? = lines.filterMap find? ↔ ∀ line ∈ lines, Exposed line := by
  rw [crop, List.filterMap_filterMap, filterMap_eq_filterMap_iff (bind_find?_cropLine dropProprietary)]
  exact forall₂_congr fun line _ => bind_find?_cropLine_eq_iff

/-! ## Cropping again -/

/-- A line without an exclamation mark is cropped from its first dollar sign on, unless a proprietary sentence starts there that is to
be left out. -/
theorem fromMark_of_not_mem {line : Text} (h : '!' ∉ line) (dropProprietary : Bool) :
    fromMark dropProprietary line =
      if dropProprietary = true ∧ ['$', 'P'] <+: Text.fromFirst '$' line then [] else Text.fromFirst '$' line := by
  unfold fromMark
  rw [Text.fromFirst_of_not_mem h]
  simp only
  split
  · rename_i rest e
    have hp : ['$', 'P'] <+: '$' :: 'P' :: rest := ⟨rest, rfl⟩
    rw [e]
    cases dropProprietary <;> simp [hp]
  · rename_i hne
    refine (if_neg ?_).symm
    rintro ⟨-, rest, e⟩
    exact hne rest e.symm

/-- What a line is cropped to is cropped from its own start on. -/
theorem fromMark_of_cropLine {dropProprietary : Bool} {line piece : Text} (h : cropLine dropProprietary line = some piece) :
    fromMark dropProprietary piece = piece := by
  obtain ⟨hpiece, -⟩ := infix_of_cropLine h
  obtain ⟨head, x, y, rest, ht, -, rfl⟩ := cropLine_eq_some_iff.1 h
  -- The mark of the line comes before the star, so the piece starts with it.
  have hstart : ∀ c b, c ≠ '*' → head ++ '*' :: x :: y :: rest = c :: b → ∃ head', head = c :: head' := by
    intro c b hc e
    cases head with
    | nil => exact absurd (List.cons.inj e).1.symm hc
    | cons d head' => exact ⟨head', by rw [(List.cons.inj e).1]⟩
  by_cases hm : '!' ∈ line
  · obtain ⟨a, b, -, -, e⟩ := Text.exists_fromFirst hm
    rw [fromMark_of_mem hm, e] at ht
    obtain ⟨head', rfl⟩ := hstart '!' b (by decide) ht.symm
    rw [fromMark_of_mem (by simp)]
    exact Text.fromFirst_cons_self _ _
  · have hm' : '!' ∉ head ++ ['*', x, y] := fun hin => hm (hpiece.subset hin)
    rw [fromMark_of_not_mem hm] at ht
    split at ht
    · exact absurd ht (by simp)
    · rename_i hkeep
      have hd : '$' ∈ line := by
        refine Classical.byContradiction fun hd => ?_
        rw [Text.fromFirst_of_not_mem hd] at ht
        exact absurd ht (by simp)
      obtain ⟨a, b, -, -, e⟩ := Text.exists_fromFirst hd
      obtain ⟨head', rfl⟩ := hstart '$' b (by decide) (ht.symm.trans e)
      have hfirst : Text.fromFirst '$' ('$' :: head' ++ ['*', x, y]) = '$' :: head' ++ ['*', x, y] :=
        Text.fromFirst_cons_self _ _
      rw [fromMark_of_not_mem hm', hfirst, if_neg]
      rintro ⟨hdrop, hp⟩
      refine hkeep ⟨hdrop, ?_⟩
      rw [ht]
      exact hp.trans ⟨rest, by simp⟩

/-- What a line is cropped to is not cropped any further. -/
theorem cropLine_of_cropLine {dropProprietary : Bool} {line piece : Text} (h : cropLine dropProprietary line = some piece) :
    cropLine dropProprietary piece = some piece := by
  have hmark := fromMark_of_cropLine h
  obtain ⟨head, x, y, rest, -, hstar, rfl⟩ := cropLine_eq_some_iff.1 h
  exact cropLine_eq_some_iff.2 ⟨head, x, y, [], hmark, hstar, rfl⟩

/-- Cropped lines are not cropped any further. -/
theorem crop_crop (dropProprietary : Bool) (lines : List Text) :
    crop dropProprietary (crop dropProprietary lines) = crop dropProprietary lines := by
  unfold crop
  rw [List.filterMap_filterMap]
  refine List.filterMap_congr fun line _ => ?_
  cases h : cropLine dropProprietary line with
  | none => rfl
  | some piece => exact cropLine_of_cropLine h

/-- A line without a mark is cropped to nothing. -/
theorem cropLine_of_marks_not_mem {line : Text} (h : '!' ∉ line) (h' : '$' ∉ line) (dropProprietary : Bool) :
    cropLine dropProprietary line = none := by
  have hnil : fromMark dropProprietary line = [] := by
    rw [fromMark_of_not_mem h, Text.fromFirst_of_not_mem h', ite_self]
  rw [cropLine, hnil]
  rfl

end Sentence
end VesselTraffic
