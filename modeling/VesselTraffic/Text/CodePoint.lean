import VesselTraffic.Text.Basic

/-!
# Code points

A log message may be filled in with any code point, also with one of the surrogates, which are no characters. So what comes of
filling in is a list of code points. Every character is one, and a text is known by its code points.
-/

namespace VesselTraffic

/-- A code point, be it a character or a surrogate. -/
abbrev CodePoint := Fin 0x110000

namespace CodePoint

/-- The code point of a character. -/
def ofChar (c : Char) : CodePoint :=
  ⟨c.toNat, by
    have h : c.toNat.isValidChar := c.valid
    unfold Nat.isValidChar at h
    omega⟩

/-- A character is known by its code point. -/
theorem ofChar_inj {a b : Char} : ofChar a = ofChar b ↔ a = b := by
  constructor
  · intro h
    exact Char.ext (UInt32.toNat_inj.1 (Fin.mk.inj h))
  · rintro rfl
    rfl

end CodePoint

namespace Text

/-- The code points of a text. -/
def codePoints (t : Text) : List CodePoint := t.map CodePoint.ofChar

end Text
end VesselTraffic
