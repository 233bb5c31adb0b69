import VesselTraffic.Text.Basic

/-!
# Upper case

Names of policies and levels and the digits of a checksum are compared in upper case, and all of them are ASCII. So upper case
is taken here as far as it leads to ASCII: beside the letters a to z these are the dotless i, the long s, the sharp s and the
Latin ligatures, some of which become two or three letters. Any other character stays as it is: its upper case is not ASCII,
hence neither spelling compares equal to an ASCII text.
-/

namespace VesselTraffic.Text

/-- The upper case of one character where it is ASCII. -/
def upperChar (c : Char) : Text :=
  match c.toNat with
  | 0x00df => ['S', 'S']
  | 0x0131 => ['I']
  | 0x017f => ['S']
  | 0xfb00 => ['F', 'F']
  | 0xfb01 => ['F', 'I']
  | 0xfb02 => ['F', 'L']
  | 0xfb03 => ['F', 'F', 'I']
  | 0xfb04 => ['F', 'F', 'L']
  | 0xfb05 => ['S', 'T']
  | 0xfb06 => ['S', 'T']
  | _ => [c.toUpper]

/-- The text in upper case, as far as that is ASCII. -/
def upper (t : Text) : Text := t.flatMap upperChar

/-- The text in lower case, for ASCII letters. -/
def lowerAscii (t : Text) : Text := t.map Char.toLower

example : upper ['a', 'B', '1', '\ufb00'] = ['A', 'B', '1', 'F', 'F'] := by decide

end VesselTraffic.Text
