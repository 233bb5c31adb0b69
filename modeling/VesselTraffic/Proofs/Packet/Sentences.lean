import VesselTraffic.Packet.Sentence

/-!
# Finding sentences

`IsSentence` is the form of an encapsulated sentence, said without the scanner. The scanner finds a sentence at the start of a text
exactly if one starts it (`atStart?_eq_some_iff`), and there is at most one, because its payload has no star. So it finds one in a
line exactly if the line has one as a piece (`find?_eq_none_iff`). Cutting a text right behind the two characters that follow its
first star splits the search: what is found in front of the cut is found first (`find?_cut`).
-/

namespace VesselTraffic.Sentence

/-- The form of a sentence: a mark, five letters and a comma, a payload without stars, a star and two hexadecimal digits. -/
inductive IsSentence : Text → Prop where
  | mk {a b c d e x y : Char} {payload : Text} (letters : [a, b, c, d, e].all Char.isUpper = true) (star : '*' ∉ payload)
      (digits : (Text.isHexDigit x && Text.isHexDigit y) = true) :
      IsSentence ('!' :: a :: b :: c :: d :: e :: ',' :: (payload ++ ['*', x, y]))

/-- An upper-case letter is no star. -/
theorem ne_star_of_isUpper {c : Char} (h : c.isUpper = true) : c ≠ '*' := by
  rintro rfl
  exact absurd h (by decide)

/-- The only star of a sentence stands before its last two characters, and its first character is the mark. -/
theorem IsSentence.split {s : Text} (h : IsSentence s) :
    ∃ front x y, s = '!' :: front ++ ['*', x, y] ∧ '*' ∉ '!' :: front := by
  cases h with
  | @mk a b c d e x y payload letters star digits =>
    simp only [List.all_cons, List.all_nil, Bool.and_true, Bool.and_eq_true] at letters
    obtain ⟨ha, hb, hc, hd, he⟩ := letters
    refine ⟨a :: b :: c :: d :: e :: ',' :: payload, x, y, rfl, ?_⟩
    simp only [List.mem_cons, not_or]
    exact ⟨by decide, (ne_star_of_isUpper ha).symm, (ne_star_of_isUpper hb).symm, (ne_star_of_isUpper hc).symm,
      (ne_star_of_isUpper hd).symm, (ne_star_of_isUpper he).symm, by decide, star⟩

/-- A sentence has at least ten characters. -/
theorem IsSentence.length {s : Text} (h : IsSentence s) : 10 ≤ s.length := by
  cases h with
  | mk letters star digits =>
    simp only [List.length_cons, List.length_append, List.length_nil]
    omega

/-- A sentence ends behind the first star and two hexadecimal digits. -/
theorem endOf_eq_some_iff {t u : Text} :
    endOf t = some u ↔ ∃ payload x y rest, t = payload ++ '*' :: x :: y :: rest ∧ '*' ∉ payload ∧
      (Text.isHexDigit x && Text.isHexDigit y) = true ∧ u = payload ++ ['*', x, y] := by
  constructor
  · intro h
    unfold endOf at h
    split at h
    · rename_i payload x y rest hcut
      obtain ⟨ht, hstar⟩ := Text.cutFirst_eq_some hcut
      split at h
      · rename_i hd
        exact ⟨payload, x, y, rest, ht, hstar, hd, (Option.some.inj h).symm⟩
      · cases h
    · cases h
  · rintro ⟨payload, x, y, rest, rfl, hstar, hd, rfl⟩
    unfold endOf
    rw [Text.cutFirst_append _ hstar]
    simp only [hd, if_true]

/-- The scanner finds what starts a text and is a sentence. -/
theorem atStart?_eq_some_iff {t s : Text} : atStart? t = some s ↔ IsSentence s ∧ s <+: t := by
  constructor
  · intro h
    unfold atStart? at h
    split at h
    · rename_i a b c d e rest
      split at h
      · rename_i hl
        obtain ⟨u, hu, rfl⟩ := Option.map_eq_some_iff.1 h
        obtain ⟨payload, x, y, after, rfl, hstar, hd, rfl⟩ := endOf_eq_some_iff.1 hu
        exact ⟨.mk hl hstar hd, after, by simp⟩
      · cases h
    · cases h
  · rintro ⟨hs, after, rfl⟩
    cases hs with
    | @mk a b c d e x y payload letters star digits =>
      have he : endOf (payload ++ ['*', x, y] ++ after) = some (payload ++ ['*', x, y]) :=
        endOf_eq_some_iff.2 ⟨payload, x, y, after, by simp, star, digits, rfl⟩
      simp only [List.cons_append, atStart?, letters, if_true, he, Option.map_some]

/-- What the scanner finds in a text is a sentence and a piece of it. -/
theorem isSentence_of_find? {t s : Text} (h : find? t = some s) : IsSentence s ∧ s <:+: t := by
  induction t with
  | nil => cases h
  | cons c rest ih =>
    rw [find?] at h
    split at h
    · rename_i s' hs'
      obtain ⟨hform, hpre⟩ := atStart?_eq_some_iff.1 hs'
      rw [← Option.some.inj h]
      exact ⟨hform, hpre.isInfix⟩
    · obtain ⟨hform, hin⟩ := ih h
      exact ⟨hform, hin.trans (List.suffix_cons c rest).isInfix⟩

/-- The scanner finds a sentence in a text that has one. -/
theorem find?_ne_none {t s : Text} (hs : IsSentence s) (h : s <:+: t) : find? t ≠ none := by
  obtain ⟨before, after, rfl⟩ := h
  induction before with
  | nil =>
    have hat : atStart? (s ++ after) = some s := atStart?_eq_some_iff.2 ⟨hs, after, rfl⟩
    obtain ⟨front, x, y, rfl, -⟩ := hs.split
    simp only [List.nil_append, List.cons_append] at hat ⊢
    rw [find?, hat]
    exact Option.some_ne_none _
  | cons c before ih =>
    simp only [List.cons_append] at ih ⊢
    rw [find?]
    split
    · exact Option.some_ne_none _
    · exact ih

/-- A text in which the scanner finds nothing has no sentence. -/
theorem find?_eq_none_iff {t : Text} : find? t = none ↔ ∀ s, IsSentence s → ¬s <:+: t := by
  constructor
  · intro h s hs hin
    exact find?_ne_none hs hin h
  · intro h
    cases hf : find? t with
    | none => rfl
    | some s =>
      obtain ⟨hs, hin⟩ := isSentence_of_find? hf
      exact absurd hin (h s hs)

/-- A text without the mark has no sentence. -/
theorem find?_of_mark_not_mem {t : Text} (h : '!' ∉ t) : find? t = none := by
  rw [find?_eq_none_iff]
  intro s hs hin
  obtain ⟨front, x, y, rfl, -⟩ := hs.split
  exact h (hin.subset (by simp))

/-- No sentence starts before the mark. -/
theorem find?_append_of_mark_not_mem {a : Text} (h : '!' ∉ a) (t : Text) : find? (a ++ t) = find? t := by
  induction a with
  | nil => rfl
  | cons c rest ih =>
    obtain ⟨hc, hrest⟩ := List.ne_and_not_mem_of_not_mem_cons h
    have hat : atStart? (c :: (rest ++ t)) = none := by
      cases hs : atStart? (c :: (rest ++ t)) with
      | none => rfl
      | some s =>
        obtain ⟨hform, hpre⟩ := atStart?_eq_some_iff.1 hs
        obtain ⟨front, x, y, rfl, -⟩ := hform.split
        exact absurd (List.cons_prefix_cons.1 hpre).1 hc
    rw [List.cons_append, find?, hat]
    exact ih hrest

/-! ## Cutting behind the first star -/

/-- The part before the first star is determined by the text. -/
theorem eq_of_append_star {a b : Text} {x y x' y' : Char} {r r' : Text} (ha : '*' ∉ a) (hb : '*' ∉ b)
    (h : a ++ '*' :: x :: y :: r = b ++ '*' :: x' :: y' :: r') : a = b ∧ x = x' ∧ y = y' := by
  have hcut := (Text.cutFirst_append (x :: y :: r) ha).symm.trans ((congrArg _ h).trans (Text.cutFirst_append _ hb))
  obtain ⟨hfront, hback⟩ := Prod.mk.inj (Option.some.inj hcut)
  obtain ⟨hx, hrest⟩ := List.cons.inj hback
  exact ⟨hfront, hx, (List.cons.inj hrest).1⟩

/-- A sentence that starts before the first star of a text ends two characters behind it. -/
theorem atStart?_cut {u : Text} (h : '*' ∉ u) (x y : Char) (rest : Text) :
    atStart? (u ++ '*' :: x :: y :: rest) = atStart? (u ++ ['*', x, y]) := by
  refine Option.ext fun s => ?_
  rw [atStart?_eq_some_iff, atStart?_eq_some_iff]
  refine and_congr_right fun hs => ⟨?_, ?_⟩
  · rintro ⟨after, e⟩
    obtain ⟨front, x', y', rfl, hstar⟩ := hs.split
    have e' : ('!' :: front) ++ '*' :: x' :: y' :: after = u ++ '*' :: x :: y :: rest := by simpa using e
    obtain ⟨rfl, rfl, rfl⟩ := eq_of_append_star hstar h e'
    exact List.prefix_refl _
  · intro hpre
    exact hpre.trans ⟨rest, by simp⟩

/-- Three characters are no sentence. -/
theorem find?_of_length_lt {t : Text} (h : t.length < 10) : find? t = none := by
  rw [find?_eq_none_iff]
  intro s hs hin
  have := hs.length
  have := hin.length_le
  omega

/-- What is found up to the second character behind the first star is found first. -/
theorem find?_cut {u : Text} (h : '*' ∉ u) (x y : Char) (rest : Text) :
    find? (u ++ '*' :: x :: y :: rest) = (find? (u ++ ['*', x, y])).or (find? ('*' :: x :: y :: rest)) := by
  induction u with
  | nil =>
    rw [List.nil_append, List.nil_append, find?_of_length_lt (t := ['*', x, y]) (by simp)]
    rfl
  | cons c u ih =>
    obtain ⟨-, hu⟩ := List.ne_and_not_mem_of_not_mem_cons h
    have hat := atStart?_cut h x y rest
    simp only [List.cons_append] at hat ⊢
    rw [find?, find?, hat]
    cases atStart? (c :: (u ++ ['*', x, y])) with
    | some s => rfl
    | none => exact ih hu

end VesselTraffic.Sentence
