import VesselTraffic.Text.Basic

/-!
# Blank characters

A character is blank if it separates words or lines: the spaces, tabs and breaks of every script, and the four information
separators U+001C to U+001F. Trimming drops the blanks at both ends of a text and keeps those inside.
-/

namespace VesselTraffic.Text

/-- The blank characters by code point. -/
def blanks : List Nat :=
  [
    0x9, 0xa, 0xb, 0xc, 0xd, 0x1c, 0x1d, 0x1e, 0x1f, 0x20, 0x85, 0xa0, 0x1680, 0x2000, 0x2001, 0x2002, 0x2003, 0x2004,
    0x2005, 0x2006, 0x2007, 0x2008, 0x2009, 0x200a, 0x2028, 0x2029, 0x202f, 0x205f, 0x3000]

/-- A blank character. -/
def isBlank (c : Char) : Bool := blanks.contains c.toNat

/-- The text without the blanks in front. -/
def trimLeft (t : Text) : Text := t.dropWhile isBlank

/-- The text without the blanks behind. -/
def trimRight (t : Text) : Text := (t.reverse.dropWhile isBlank).reverse

/-- The text without the blanks at both ends. -/
def trim (t : Text) : Text := trimRight (trimLeft t)

example : blanks.length = 29 := rfl
example : blanks.all fun n => (Char.ofNat n).toNat = n := by decide
example : trim [' ', '\t', 'A', ' ', 'B', '\u3000'] = ['A', ' ', 'B'] := by decide

end VesselTraffic.Text
