import VesselTraffic.Number.Fixed
import VesselTraffic.Record.Cell
import VesselTraffic.Text.CodePoint

/-!
# Message templates

A template is a text with placeholders. A placeholder is a percent sign, an optional name in parentheses, flags, a width, a
precision and a letter that says how its value is written; a star takes the width or the precision from the values. Values are
taken in order, or by name if there is one record of them; all of them have to be used up. A doubled percent sign stands for one.
A character may be given by its code point, also by that of a surrogate, so a filled-in template is a list of code points.
-/

namespace VesselTraffic

/-- Why a template could not be filled in. -/
inductive TemplateFault where
  | notEnoughValues
  | notAllValues
  | unsupported (letter : Char) (index : Nat)
  | incomplete
  | incompleteName
  | needsRecord
  | missingName (name : Text)
  | starWantsInteger
  | valueTooBig (counter : String)
  | widthTooBig
  | precisionTooBig
  | wantsReal (letter : Char) (kind : String)
  | wantsInteger (letter : Char) (kind : String)
  | wantsDecimal (kind : String)
  | wantsCharacter
  | characterRange
  | number (fault : NumberFault)
deriving DecidableEq, Repr

namespace TemplateFault

/-- The category of a fault of a template. -/
def category : TemplateFault → Category
  | unsupported _ _ | incomplete | incompleteName | widthTooBig | precisionTooBig => .badValue
  | missingName _ => .missingKey
  | characterRange | valueTooBig _ => .outOfRange
  | number e => e.category
  | _ => .badType

/-- The wording of a fault of a template. -/
def message : TemplateFault → Text
  | notEnoughValues => "not enough arguments for format string".toList
  | notAllValues => "not all arguments converted during string formatting".toList
  | unsupported c i =>
    "unsupported format character '".toList ++ (if 31 ≤ c.toNat ∧ c.toNat < 126 then c else '?') :: "' (0x".toList ++
      Text.lowerHex 1 c.toNat ++ ") at index ".toList ++ Text.ofNat i
  | incomplete => "incomplete format".toList
  | incompleteName => "incomplete format key".toList
  | needsRecord => "format requires a mapping".toList
  | missingName n => n.quoted
  | starWantsInteger => "* wants int".toList
  | valueTooBig k => "Python int too large to convert to C ".toList ++ k.toList
  | widthTooBig => "width too big".toList
  | precisionTooBig => "precision too big".toList
  | wantsReal c k => '%' :: c :: " format: a real number is required, not ".toList ++ k.toList
  | wantsInteger c k => '%' :: c :: " format: an integer is required, not ".toList ++ k.toList
  | wantsDecimal k => "must be real number, not ".toList ++ k.toList
  | wantsCharacter => "%c requires int or char".toList
  | characterRange => "%c arg not in range(0x110000)".toList
  | number e => e.message

end TemplateFault

namespace Template

/-- The values of a template: in order with those used up left out, or a record with the one that comes next without a name. -/
inductive Values where
  | inOrder (rest : List Cell)
  | byName (fields : List (Text × Cell)) (next : Option Cell)

namespace Values

/-- The values for a list of arguments. A single record that is not empty gives its values by name. -/
def ofArguments : List Cell → Values
  | [.record (f :: fields)] => .byName (f :: fields) (some (.record (f :: fields)))
  | cells => .inOrder cells

/-- The next value. -/
def next : Values → Except TemplateFault (Cell × Values)
  | inOrder (c :: rest) => .ok (c, .inOrder rest)
  | byName fields (some c) => .ok (c, .byName fields none)
  | _ => .error .notEnoughValues

/-- The value with a name made the next one. -/
def select (name : Text) : Values → Except TemplateFault Values
  | inOrder _ => .error .needsRecord
  | byName fields _ =>
    match fields.lookup name with
    | some c => .ok (.byName fields (some c))
    | none => .error (.missingName name)

/-- Values that are all used up. -/
def usedUp : Values → Bool
  | inOrder rest => rest.isEmpty
  | byName _ _ => true

end Values

/-- The flags of a placeholder. -/
structure Flags where
  left : Bool
  plus : Bool
  blank : Bool
  alternate : Bool
  zero : Bool
deriving DecidableEq, Repr

/-- No flags. -/
def Flags.none : Flags := ⟨false, false, false, false, false⟩

/-- The flags at the front of a text, and the rest. -/
def takeFlags (f : Flags) : Text → Flags × Text
  | [] => (f, [])
  | c :: rest =>
    if c = '-' then takeFlags { f with left := true } rest
    else if c = '+' then takeFlags { f with plus := true } rest
    else if c = ' ' then takeFlags { f with blank := true } rest
    else if c = '#' then takeFlags { f with alternate := true } rest
    else if c = '0' then takeFlags { f with zero := true } rest
    else (f, c :: rest)

/-- The name up to the parenthesis that closes it, and the rest; `depth` more are open inside it. -/
def takeName (depth : Nat) : Text → Option (Text × Text)
  | [] => none
  | c :: rest =>
    if c = ')' then
      match depth with
      | 0 => some ([], rest)
      | d + 1 => (takeName d rest).map fun p => (c :: p.1, p.2)
    else (takeName (if c = '(' then depth + 1 else depth) rest).map fun p => (c :: p.1, p.2)

/-- The number that digits at the front spell, and the rest. -/
def takeNumber (t : Text) : Nat × Text :=
  ((t.takeWhile Char.isDigit).foldl (fun n c => 10 * n + (c.toNat - '0'.toNat)) 0, t.dropWhile Char.isDigit)

/-- The greatest width. -/
def sizeLimit : Nat := pow2 63 - 1

/-- A placeholder: its flags, width, precision and letter. -/
structure Placeholder where
  flags : Flags
  width : Option Nat
  precision : Option Nat
  letter : Char

/-- The greatest precision. -/
def precisionLimit : Nat := pow2 31 - 1

/-- A width or precision taken from the values, which a counter of the given name and limit has to hold. -/
def starred (counter : String) (limit : Nat) (values : Values) : Except TemplateFault (Int × Values) := do
  let (c, values) ← values.next
  match c with
  | .whole n =>
    if n < -(limit : Int) - 1 ∨ (limit : Int) < n then throw (.valueTooBig counter) else return (n, values)
  | .flag b => return (if b then 1 else 0, values)
  | _ => throw .starWantsInteger

/-- The width at the front of a text, with the flags that it sets. -/
def takeWidth (flags : Flags) (values : Values) (t : Text) :
    Except TemplateFault (Flags × Option Nat × Values × Text) :=
  match t with
  | '*' :: rest => do
    let (n, values) ← starred "ssize_t" sizeLimit values
    return (if n < 0 then { flags with left := true } else flags, some n.natAbs, values, rest)
  | c :: _ =>
    if c.isDigit then
      let (n, rest) := takeNumber t
      if sizeLimit < n then .error .widthTooBig else .ok (flags, some n, values, rest)
    else .ok (flags, none, values, t)
  | [] => .ok (flags, none, values, [])

/-- The precision at the front of a text. -/
def takePrecision (values : Values) (t : Text) : Except TemplateFault (Option Nat × Values × Text) :=
  match t with
  | '.' :: '*' :: rest => do
    let (n, values) ← starred "int" precisionLimit values
    return (some n.toNat, values, rest)
  | '.' :: rest =>
    let (n, behind) := takeNumber rest
    if precisionLimit < n then .error .precisionTooBig else .ok (some n, values, behind)
  | _ => .ok (none, values, t)

/-- The text without a size letter at its front, which says nothing. -/
def dropSize : Text → Text
  | c :: rest => if c = 'h' ∨ c = 'l' ∨ c = 'L' then rest else c :: rest
  | [] => []

/-- The placeholder behind a percent sign, the values with its name selected and its stars used up, and the rest. -/
def takePlaceholder (values : Values) (t : Text) : Except TemplateFault (Placeholder × Values × Text) := do
  let (values, t) ← match t with
    | '(' :: rest =>
      match values, takeName 0 rest with
      | .inOrder _, _ => .error .needsRecord
      | _, none => .error .incompleteName
      | values, some (name, rest) => (values.select name).map (·, rest)
    | _ => .ok (values, t)
  let (flags, t) := takeFlags Flags.none t
  let (flags, width, values, t) ← takeWidth flags values t
  let (precision, values, t) ← takePrecision values t
  match dropSize t with
  | [] => throw .incomplete
  | letter :: rest => return ({ flags, width, precision, letter }, values, rest)

/-- What a value is written as before it is padded: a sign, a mark of the base, and the rest; numbers may be filled with
zeros. -/
structure Written where
  sign : Text
  mark : Text
  body : Text
  numeric : Bool

/-- A text in the width of its placeholder. -/
def pad (p : Placeholder) (w : Written) : Text :=
  let plain := w.sign ++ w.mark ++ w.body
  let missing := p.width.getD 0 - plain.length
  if p.flags.left then plain ++ List.replicate missing ' '
  else if p.flags.zero && w.numeric then w.sign ++ w.mark ++ List.replicate missing '0' ++ w.body
  else List.replicate missing ' ' ++ plain

/-- The sign of a number, which the flags may ask for also when it is not negative. -/
def signOf (flags : Flags) (negative : Bool) : Text :=
  if negative then ['-'] else if flags.plus then ['+'] else if flags.blank then [' '] else []

/-- A text cut to the precision. -/
def textual (p : Placeholder) (t : Text) : Written :=
  ⟨[], [], (match p.precision with
    | none => t
    | some n => t.take n), false⟩

/-- A quoted text without characters beyond ASCII. -/
def asciiOnly (t : Text) : Text :=
  t.flatMap fun c =>
    if c.toNat < 0x80 then [c]
    else if c.toNat < 0x100 then '\\' :: 'x' :: Text.lowerHex 2 c.toNat
    else if c.toNat < 0x10000 then '\\' :: 'u' :: Text.lowerHex 4 c.toNat
    else '\\' :: 'U' :: Text.lowerHex 8 c.toNat

/-- The value of an integer placeholder. Only decimal letters take a number that is not an integer. -/
def integerOf (letter : Char) (c : Cell) : Except TemplateFault Int :=
  match c with
  | .whole n => .ok n
  | .flag b => .ok (if b then 1 else 0)
  | .real x =>
    if letter = 'o' ∨ letter = 'x' ∨ letter = 'X' then .error (.wantsInteger letter c.kind)
    else (Double.trunc x).mapError .number
  | _ =>
    if letter = 'o' ∨ letter = 'x' ∨ letter = 'X' then .error (.wantsInteger letter c.kind)
    else .error (.wantsReal letter c.kind)

/-- The digits of the magnitude of an integer in the base of a letter; only decimal ones may be too many. -/
def digitsOf (letter : Char) (n : Int) : Except NumberFault Text :=
  if letter = 'o' then .ok (Nat.toDigits 8 n.natAbs)
  else if letter = 'x' then .ok (Nat.toDigits 16 n.natAbs)
  else if letter = 'X' then .ok ((Nat.toDigits 16 n.natAbs).map Char.toUpper)
  else Number.writeInteger n.natAbs

/-- An integer in the base of its letter. -/
def integral (p : Placeholder) (n : Int) : Except NumberFault Written :=
  (digitsOf p.letter n).map fun digits =>
    let mark := if p.flags.alternate ∧ ['o', 'x', 'X'].contains p.letter then ['0', p.letter] else []
    ⟨signOf p.flags (n < 0), mark, Text.padLeft '0' (p.precision.getD 0) digits, true⟩

/-- The digits of a positive double rounded to `count` of them, and the power of ten of the first. -/
def significant (mantissa : Nat) (exponent : Int) (count : Nat) : Text × Int :=
  let x : Dyadic := ⟨mantissa, exponent⟩
  let top := Decimal.magnitude x.num.toNat x.den
  let unit := top - count + 1
  let n := (roundHalfEven (x.num * pow10 (-unit).toNat) (x.den * pow10 unit.toNat)).toNat
  let digits := Text.ofNat n
  if digits.length ≤ count then (digits, top) else (digits.take count, top + 1)

/-- Digits with a point behind the first `whole` of them. -/
def pointed (alternate : Bool) (whole : Nat) (digits : Text) : Text :=
  digits.take whole ++ (if digits.length ≤ whole then (if alternate then ['.'] else []) else '.' :: digits.drop whole)

/-- A magnitude with an exponent. -/
def exponential (alternate : Bool) (places mantissa : Nat) (exponent : Int) : Text :=
  let (digits, power) := if mantissa = 0 then (List.replicate (places + 1) '0', 0)
    else significant mantissa exponent (places + 1)
  pointed alternate 1 digits ++ 'e' :: DoubleLayout.exponentText 2 power

/-- A magnitude in a number of digits, positional or with an exponent, whichever is usual for its size. -/
def general (alternate : Bool) (precision mantissa : Nat) (exponent : Int) : Text :=
  let count := max precision 1
  let (digits, power) := if mantissa = 0 then (List.replicate count '0', 0) else significant mantissa exponent count
  let keep := fun (least : Nat) (t : Text) =>
    if alternate then t else t.take least ++ Decimal.strip (t.drop least)
  if power < -4 ∨ (count : Int) ≤ power then
    pointed alternate 1 (keep 1 digits) ++ 'e' :: DoubleLayout.exponentText 2 power
  else if power < 0 then
    pointed alternate 1 (keep 1 ('0' :: List.replicate (-power - 1).toNat '0' ++ digits))
  else
    let whole := power.toNat + 1
    pointed alternate whole (keep whole digits)

/-- A double in the form of its letter. -/
def decimal (p : Placeholder) (x : Float) : Written :=
  let precision := p.precision.getD 6
  let form := p.letter.toLower
  let raise := fun t : Text => if p.letter.isUpper then t.map Char.toUpper else t
  match DoubleParts.ofDouble x with
  | .nan => ⟨signOf p.flags false, [], raise ['n', 'a', 'n'], true⟩
  | .infinite negative => ⟨signOf p.flags negative, [], raise ['i', 'n', 'f'], true⟩
  | .finite negative m e =>
    let body :=
      if form = 'f' then
        Double.fixedMagnitude precision m e ++ (if p.flags.alternate ∧ precision = 0 then ['.'] else [])
      else if form = 'e' then exponential p.flags.alternate precision m e
      else general p.flags.alternate precision m e
    ⟨signOf p.flags negative, [], raise body, true⟩

/-- The value of a decimal placeholder. -/
def decimalOf (c : Cell) : Except TemplateFault Float :=
  match c with
  | .real x => .ok x
  | .whole n => (Double.ofInt n).mapError .number
  | .flag b => .ok (if b then 1 else 0)
  | _ => .error (.wantsDecimal c.kind)

/-- The code point of a character placeholder. -/
def characterOf (c : Cell) : Except TemplateFault CodePoint :=
  match c with
  | .text [x] => .ok (CodePoint.ofChar x)
  | .whole n => if h : 0 ≤ n ∧ n < 0x110000 then .ok ⟨n.toNat, by omega⟩ else .error .characterRange
  | .flag b => .ok (if b then 1 else 0)
  | _ => .error .wantsCharacter

/-- A code point in the width of its placeholder. -/
def padCharacter (p : Placeholder) (x : CodePoint) : List CodePoint :=
  let blanks := Text.codePoints (List.replicate (p.width.getD 0 - 1) ' ')
  if p.flags.left then x :: blanks else blanks ++ [x]

/-- A value as its placeholder writes it, unless it is a character; `index` is the place of the letter in the template. -/
def fillText (p : Placeholder) (index : Nat) (c : Cell) : Except TemplateFault Text :=
  if p.letter = 's' then (c.display.mapError .number).map fun t => pad p (textual p t)
  else if p.letter = 'r' then (c.literal.mapError .number).map fun t => pad p (textual p t)
  else if p.letter = 'a' then (c.literal.mapError .number).map fun t => pad p (textual p (asciiOnly t))
  else if ['d', 'i', 'u', 'o', 'x', 'X'].contains p.letter then
    (integerOf p.letter c).bind fun n => ((integral p n).mapError .number).map (pad p)
  else if ['e', 'E', 'f', 'F', 'g', 'G'].contains p.letter then (decimalOf c).map fun x => pad p (decimal p x)
  else .error (.unsupported p.letter index)

/-- A value as its placeholder writes it. -/
def fill (p : Placeholder) (index : Nat) (c : Cell) : Except TemplateFault (List CodePoint) :=
  if p.letter = 'c' then (characterOf c).map (padCharacter p) else (fillText p index c).map Text.codePoints

/-- The rest of a template of the given length filled in; at most `fuel` more characters are read. -/
def fillFrom (length : Nat) : (fuel : Nat) → Values → Text → Except TemplateFault (List CodePoint)
  | 0, values, _ => if values.usedUp then .ok [] else .error .notAllValues
  | _ + 1, values, [] => if values.usedUp then .ok [] else .error .notAllValues
  | fuel + 1, values, c :: rest =>
    if c = '%' then do
      if let '%' :: behind := rest then return CodePoint.ofChar '%' :: (← fillFrom length fuel values behind)
      let (p, values, behind) ← takePlaceholder values rest
      let (value, values) ← values.next
      let written ← fill p (length - behind.length - 1) value
      return written ++ (← fillFrom length fuel values behind)
    else (fillFrom length fuel values rest).map (CodePoint.ofChar c :: ·)

/-- A template filled in with arguments. -/
def format (template : Text) (arguments : List Cell) : Except TemplateFault (List CodePoint) :=
  fillFrom template.length (template.length + 1) (Values.ofArguments arguments) template

end Template
end VesselTraffic
