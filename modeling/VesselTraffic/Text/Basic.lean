/-!
# Text

Every wire format here is scanned by hand, so text is a list of characters and each scanner is a recursion on it. A scanner
that cuts gives back both sides of the cut, so nothing is lost: `cutFirst` and `cutLast` differ only in which occurrence of the
mark they cut at.
-/

namespace VesselTraffic

/-- A text is the list of its characters. -/
abbrev Text := List Char

namespace Text

/-- What stands before the first `c` and what follows it; `none` if there is no `c`. -/
def cutFirst (c : Char) : Text → Option (Text × Text)
  | [] => none
  | x :: rest => if x = c then some ([], rest) else (cutFirst c rest).map fun p => (x :: p.1, p.2)

/-- What stands before the last `c` and what follows it; `none` if there is no `c`. -/
def cutLast (c : Char) : Text → Option (Text × Text)
  | [] => none
  | x :: rest =>
    match cutLast c rest with
    | some p => some (x :: p.1, p.2)
    | none => if x = c then some ([], rest) else none

/-- The text from its first `c` on, or nothing if there is no `c`. -/
def fromFirst (c : Char) (t : Text) : Text := t.dropWhile (· != c)

/-- A character is written with this many blanks or zeros in front until the text is `width` long. -/
def padLeft (fill : Char) (width : Nat) (t : Text) : Text := List.replicate (width - t.length) fill ++ t

/-- Blanks or zeros behind the text until it is `width` long. -/
def padRight (fill : Char) (width : Nat) (t : Text) : Text := t ++ List.replicate (width - t.length) fill

/-- The decimal digits of a natural number, without leading zeros. -/
def ofNat (n : Nat) : Text := Nat.toDigits 10 n

/-- A decimal integer: a minus sign if it is negative, and no leading zeros. -/
def ofInt : Int → Text
  | .ofNat n => ofNat n
  | .negSucc n => '-' :: ofNat (n + 1)

/-- A natural number of at least `width` decimal digits, with zeros in front. -/
def ofNatPadded (width n : Nat) : Text := padLeft '0' width (ofNat n)

/-- Upper-case hexadecimal digits of a natural number, at least `width` of them. -/
def upperHex (width n : Nat) : Text := padLeft '0' width ((Nat.toDigits 16 n).map Char.toUpper)

/-- Lower-case hexadecimal digits of a natural number, at least `width` of them. -/
def lowerHex (width n : Nat) : Text := padLeft '0' width (Nat.toDigits 16 n)

/-- The value of a hexadecimal digit of either case. -/
def hexValue? (c : Char) : Option Nat :=
  if '0' ≤ c ∧ c ≤ '9' then some (c.toNat - '0'.toNat)
  else if 'A' ≤ c ∧ c ≤ 'F' then some (c.toNat - 'A'.toNat + 10)
  else if 'a' ≤ c ∧ c ≤ 'f' then some (c.toNat - 'a'.toNat + 10)
  else none

/-- A hexadecimal digit of either case. -/
def isHexDigit (c : Char) : Bool := (hexValue? c).isSome

/-- Both sides of a cut at the first mark, put together again, are the text. -/
theorem cutFirst_eq_some {c : Char} {t a b : Text} (h : cutFirst c t = some (a, b)) : t = a ++ c :: b ∧ c ∉ a := by
  induction t generalizing a with
  | nil => simp [cutFirst] at h
  | cons x rest ih =>
    rw [cutFirst] at h
    split at h
    · rename_i hx
      obtain ⟨rfl, rfl⟩ := Prod.mk.inj (Option.some.inj h)
      exact ⟨by rw [hx]; rfl, by simp⟩
    · rename_i hx
      obtain ⟨p, hp, he⟩ := Option.map_eq_some_iff.1 h
      obtain ⟨rfl, rfl⟩ := Prod.mk.inj he
      obtain ⟨hrest, hmem⟩ := ih (a := p.1) (by rw [hp])
      refine ⟨by rw [hrest]; rfl, ?_⟩
      intro hc
      rcases List.mem_cons.1 hc with hc | hc
      · exact hx hc.symm
      · exact hmem hc

/-- A text that has the mark is cut at it, and one that lacks it is not. -/
theorem cutFirst_eq_none_iff {c : Char} {t : Text} : cutFirst c t = none ↔ c ∉ t := by
  induction t with
  | nil => simp [cutFirst]
  | cons x rest ih =>
    rw [cutFirst]
    split
    · rename_i hx
      simp [hx]
    · rename_i hx
      rw [Option.map_eq_none_iff, ih, List.mem_cons]
      constructor
      · rintro h (hc | hc)
        · exact hx hc.symm
        · exact h hc
      · exact fun h hc => h (Or.inr hc)

/-- Cutting at the first mark finds the first of the marks. -/
theorem cutFirst_append {c : Char} {a : Text} (b : Text) (h : c ∉ a) : cutFirst c (a ++ c :: b) = some (a, b) := by
  induction a with
  | nil => simp [cutFirst]
  | cons x rest ih =>
    have hx : x ≠ c := fun e => h (by rw [e]; exact List.mem_cons_self)
    have hr : c ∉ rest := fun e => h (List.mem_cons_of_mem _ e)
    rw [List.cons_append, cutFirst, if_neg hx, ih hr]
    rfl

/-- Without the mark there is nothing to cut at. -/
theorem cutLast_eq_none_iff {c : Char} {t : Text} : cutLast c t = none ↔ c ∉ t := by
  induction t with
  | nil => simp [cutLast]
  | cons x rest ih =>
    rw [cutLast]
    cases hr : cutLast c rest with
    | some p =>
      have : c ∈ rest := Classical.byContradiction fun hn => by rw [ih.2 hn] at hr; cases hr
      simp [this]
    | none =>
      have hn := ih.1 hr
      by_cases hx : x = c
      · simp [hx]
      · simp [hx, hn, Ne.symm hx]

/-- Cutting at the last mark finds the last of the marks. -/
theorem cutLast_append {c : Char} (a : Text) {b : Text} (h : c ∉ b) : cutLast c (a ++ c :: b) = some (a, b) := by
  induction a with
  | nil => simp [cutLast, cutLast_eq_none_iff.2 h]
  | cons x rest ih => rw [List.cons_append, cutLast, ih]

/-- Both sides of a cut at the last mark, put together again, are the text. -/
theorem cutLast_eq_some {c : Char} {t a b : Text} (h : cutLast c t = some (a, b)) : t = a ++ c :: b ∧ c ∉ b := by
  induction t generalizing a with
  | nil => simp [cutLast] at h
  | cons x rest ih =>
    rw [cutLast] at h
    cases hr : cutLast c rest with
    | some p =>
      simp only [hr, Option.some.injEq, Prod.mk.injEq] at h
      obtain ⟨rfl, rfl⟩ := h
      obtain ⟨hrest, hmem⟩ := ih (a := p.1) hr
      exact ⟨by rw [hrest]; rfl, hmem⟩
    | none =>
      simp only [hr] at h
      split at h
      · rename_i hx
        obtain ⟨rfl, rfl⟩ := Prod.mk.inj (Option.some.inj h)
        exact ⟨by rw [hx]; rfl, cutLast_eq_none_iff.1 hr⟩
      · cases h

end Text
end VesselTraffic
