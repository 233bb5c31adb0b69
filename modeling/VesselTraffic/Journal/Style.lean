import VesselTraffic.Fault.Category
import VesselTraffic.Text.Quoted

/-!
# Terminal colours

A terminal shows a text in colour between two control sequences: one with the number of the colour, by ten higher for the
background, and a mark for bold face; and one that ends it.
-/

namespace VesselTraffic

/-- A colour of the terminal. -/
inductive TerminalColour where
  | gray
  | red
  | green
  | yellow
  | blue
  | magenta
  | cyan
  | white
  | crimson
deriving DecidableEq, Repr

/-- Why a text cannot be coloured. -/
inductive StyleFault where
  | unknownColour (name : Text)
deriving DecidableEq, Repr

namespace StyleFault

/-- The category of a fault of colouring. -/
def category : StyleFault → Category
  | unknownColour _ => .missingKey

/-- The wording of a fault of colouring. -/
def message : StyleFault → Text
  | unknownColour n => n.quoted

end StyleFault

namespace TerminalColour

/-- All colours with their names. -/
def names : List (String × TerminalColour) :=
  [("gray", gray), ("red", red), ("green", green), ("yellow", yellow), ("blue", blue), ("magenta", magenta),
    ("cyan", cyan), ("white", white), ("crimson", crimson)]

/-- The colour with a name. -/
def ofName (name : Text) : Except StyleFault TerminalColour :=
  match names.find? fun e => e.1.toList = name with
  | some e => .ok e.2
  | none => .error (.unknownColour name)

/-- The number of a colour for the text; a background has a number higher by ten. -/
def number : TerminalColour → Nat
  | gray => 30
  | red => 31
  | green => 32
  | yellow => 33
  | blue => 34
  | magenta => 35
  | cyan => 36
  | white => 37
  | crimson => 38

/-- The control sequence that ends all colours. -/
def reset : Text := ['\x1b', '[', '0', 'm']

/-- A text in a colour. -/
def paint (c : TerminalColour) (bold highlight : Bool) (t : Text) : Text :=
  let number := if highlight then c.number + 10 else c.number
  '\x1b' :: '[' :: Text.ofNat number ++ (if bold then [';', '1'] else []) ++ 'm' :: t ++ reset

end TerminalColour
end VesselTraffic
