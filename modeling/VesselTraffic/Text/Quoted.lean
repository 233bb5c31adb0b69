import VesselTraffic.Text.Printable

/-!
# Quoted text

Messages show a text between quotes so that it can be told from its surroundings. The quotes are single ones, unless the text
has a single quote and no double quote. Inside, the quote and the backslash are escaped, a line feed, a carriage return and a
tab have their letters, and every other unprintable character is written as its code point in two, four or eight hexadecimal
digits, whichever is the first that fits.
-/

namespace VesselTraffic.Text

/-- The quote that a text is written between. -/
def quoteFor (t : Text) : Char := if '\'' ∈ t ∧ '"' ∉ t then '"' else '\''

/-- One character between quotes of the given kind. -/
def escapeChar (quote c : Char) : Text :=
  if c = quote ∨ c = '\\' then ['\\', c]
  else if c = '\n' then ['\\', 'n']
  else if c = '\r' then ['\\', 'r']
  else if c = '\t' then ['\\', 't']
  else if isPrintable c then [c]
  else if c.toNat < 0x100 then '\\' :: 'x' :: lowerHex 2 c.toNat
  else if c.toNat < 0x10000 then '\\' :: 'u' :: lowerHex 4 c.toNat
  else '\\' :: 'U' :: lowerHex 8 c.toNat

/-- The text between quotes. -/
def quoted (t : Text) : Text := quoteFor t :: t.flatMap (escapeChar (quoteFor t)) ++ [quoteFor t]

example : quoted ['i', 't', '\'', 's'] = ['"', 'i', 't', '\'', 's', '"'] := by decide +kernel
example : quoted ['\'', '"'] = ['\'', '\\', '\'', '"', '\''] := by decide +kernel
example : quoted ['\x00', '\\'] = ['\'', '\\', 'x', '0', '0', '\\', '\\', '\''] := by decide +kernel

end VesselTraffic.Text
