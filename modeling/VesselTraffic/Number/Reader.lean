import VesselTraffic.Number.Shortest
import VesselTraffic.Text.Blank
import VesselTraffic.Text.DecimalDigit
import VesselTraffic.Text.UpperCase

/-!
# Reading numbers

Blanks around a number are dropped, the information separators excepted. Digits may come from any script and may be parted by single
underscores. An integer is a sign and digits, not more of them than it may be written with; a decimal has a sign, digits with at most one
point among them and an exponent, or is one of the words for infinity and not-a-number. A decimal beyond the doubles reads as infinite.
-/

namespace VesselTraffic.Number

/-- A character that may stand around a number: a blank, but not one of the four information separators. -/
def isMargin (c : Char) : Bool := Text.isBlank c && !(0x1c ≤ c.toNat && c.toNat ≤ 0x1f)

/-- The text without the margins at both ends. -/
def dropMargins (t : Text) : Text := ((t.dropWhile isMargin).reverse.dropWhile isMargin).reverse

/-- A sign, if there is one, and the rest; `true` is a minus sign. -/
def takeSign : Text → Bool × Text
  | '-' :: rest => (true, rest)
  | '+' :: rest => (false, rest)
  | t => (false, t)

/-- The digits that go on behind a digit, single underscores between two digits left out, and the rest. -/
def moreDigits : Text → List Nat × Text
  | [] => ([], [])
  | c :: rest =>
    match Text.digitValue? c with
    | some v =>
      let run := moreDigits rest
      (v :: run.1, run.2)
    | none =>
      if c = '_' then
        match rest with
        | [] => ([], ['_'])
        | d :: more =>
          match Text.digitValue? d with
          | some v =>
            let run := moreDigits more
            (v :: run.1, run.2)
          | none => ([], '_' :: d :: more)
      else ([], c :: rest)

/-- The digits at the front, single underscores between two digits left out, and the rest. -/
def takeDigits : Text → List Nat × Text
  | [] => ([], [])
  | c :: rest =>
    match Text.digitValue? c with
    | some v =>
      let run := moreDigits rest
      (v :: run.1, run.2)
    | none => ([], c :: rest)

/-- The number that decimal digits spell, the first digit counting most. -/
def ofDigits (digits : List Nat) : Nat := digits.foldl (fun n d => 10 * n + d) 0

/-- An integer spelled by a text. -/
def readInteger (t : Text) : Except NumberFault Int :=
  let signed := takeSign (dropMargins t)
  let run := takeDigits signed.2
  if run.1 = [] ∨ run.2.head? = some '_' then .error (.invalidInteger t)
  else if digitLimit < run.1.length then .error (.tooManyDigits run.1.length)
  else if run.2 ≠ [] then .error (.invalidInteger t)
  else .ok (if signed.1 then -(ofDigits run.1 : Int) else ofDigits run.1)

/-- An exponent mark with its sign and digits, or no exponent if the text has ended. -/
def readExponent? : Text → Option Int
  | [] => some 0
  | c :: rest =>
    if c = 'e' ∨ c = 'E' then
      let signed := takeSign rest
      match takeDigits signed.2 with
      | (d :: ds, []) => some (if signed.1 then -(ofDigits (d :: ds) : Int) else ofDigits (d :: ds))
      | _ => none
    else none

/-- The digits before and after the point and the exponent behind them, if the text spells an unsigned decimal. -/
def readParts? (t : Text) : Option (List Nat × List Nat × Int) :=
  let whole := takeDigits t
  match whole.2 with
  | '.' :: rest =>
    let places := takeDigits rest
    if whole.1 = [] ∧ places.1 = [] then none
    else (readExponent? places.2).map fun e => (whole.1, places.1, e)
  | rest => if whole.1 = [] then none else (readExponent? rest).map fun e => (whole.1, [], e)

/-- The double nearest to `digits · 10 ^ exponent`, infinite if it lies beyond the doubles. -/
def ofScientific (negative : Bool) (digits : List Nat) (exponent : Int) : Float :=
  let m := ofDigits digits
  if m = 0 then Double.ofMagnitude negative 0
  else
    let top := (Text.ofNat m).length + exponent
    let x :=
      if 400 < top then Double.infinity false
      else if top < -400 then Double.ofMagnitude false 0
      else Float.ofScientific m (decide (exponent < 0)) exponent.natAbs
    if negative then -x else x

/-- The decimal that an unsigned text spells, with the given sign. -/
def readUnsigned? (negative : Bool) (t : Text) : Option Float :=
  let word := t.lowerAscii
  if word = ['i', 'n', 'f'] ∨ word = ['i', 'n', 'f', 'i', 'n', 'i', 't', 'y'] then some (Double.infinity negative)
  else if word = ['n', 'a', 'n'] then some Double.nan
  else (readParts? t).map fun (whole, places, e) => ofScientific negative (whole ++ places) (e - places.length)

/-- A decimal spelled by a text. -/
def readDecimal (t : Text) : Except NumberFault Float :=
  let signed := takeSign (dropMargins t)
  match readUnsigned? signed.1 signed.2 with
  | some x => .ok x
  | none => .error (.invalidDecimal t)

end VesselTraffic.Number
