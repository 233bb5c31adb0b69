import VesselTraffic.Record.Csv
import VesselTraffic.Record.Row

/-!
# Columns of one kind

All cells of a column are of one kind, found from those that are not missing: integers, doubles, truth values or texts, whichever
is the first that fits them all. Missing is a double that is not a number.

Integers are first read in words of 64 binary digits with a sign; beside missing cells they become doubles. A cell that is no
integer leaves the column to the doubles, but one that is too wide for such a word leads to words without a sign. These go neither
with signs nor with missing cells: such a column is texts as they are written. An integer that is too wide also for them makes the
column one of integers without bounds, or of texts if it has a cell that spells none.
-/

namespace VesselTraffic.Csv

/-- The spellings of a missing cell. -/
def missingTexts : List Text :=
  ["", "#N/A", "#N/A N/A", "#NA", "-1.#IND", "-1.#QNAN", "-NaN", "-nan", "1.#IND", "1.#QNAN", "<NA>", "N/A", "NA", "NULL",
    "NaN", "None", "n/a", "nan", "null"].map String.toList

/-- A cell as it is written, unless it is missing. -/
def written? (t : Text) : Option Text := if missingTexts.contains t then none else some t

/-- White space around a number. -/
def isSpace (c : Char) : Bool := c = ' ' || ('\t' ≤ c && c ≤ '\r')

/-- A sign, if there is one, and the rest; `true` is a minus sign. -/
def takeSign (t : Text) : Bool × Text := Number.takeSign (t.dropWhile isSpace)

/-- The value of a decimal digit. -/
def digit (c : Char) : Nat := c.toNat - '0'.toNat

/-- The integer that a cell spells. -/
def integer? (t : Text) : Option Int :=
  let signed := takeSign t
  let digits := signed.2.takeWhile Char.isDigit
  if digits = [] ∨ !(signed.2.dropWhile Char.isDigit).all isSpace then none
  else
    let n := digits.foldl (fun n c => 10 * n + digit c) 0
    some (if signed.1 then -(n : Int) else n)

/-- The exponent behind the digits of a double and the rest; none if there is no digit behind its mark. -/
def takeExponent (t : Text) : Int × Text :=
  match t with
  | c :: rest =>
    if c = 'e' ∨ c = 'E' then
      let signed := Number.takeSign rest
      let digits := signed.2.takeWhile Char.isDigit
      if digits = [] then (0, t)
      else
        let n := digits.foldl (fun n c => 10 * n + digit c) 0
        (if signed.1 then -(n : Int) else n, signed.2.drop digits.length)
    else (0, t)
  | [] => (0, [])

/-- The point and the places behind it, and the rest. -/
def takePlaces : Text → Text × Text
  | '.' :: rest => (rest.takeWhile Char.isDigit, rest.dropWhile Char.isDigit)
  | t => ([], t)

/-- The words for infinity. -/
def infinity? (t : Text) : Option Float :=
  let word := t.lowerAscii
  let words := [['i', 'n', 'f'], ['i', 'n', 'f', 'i', 'n', 'i', 't', 'y']]
  match word with
  | '-' :: rest => if words.contains rest then some (Double.infinity true) else none
  | '+' :: rest => if words.contains rest then some (Double.infinity false) else none
  | _ => if words.contains word then some (Double.infinity false) else none

/-- The double nearest to what digits spell. -/
def decimal? (t : Text) : Option Float :=
  let signed := takeSign t
  let whole := signed.2.takeWhile Char.isDigit
  let placed := takePlaces (signed.2.dropWhile Char.isDigit)
  let behind := takeExponent placed.2
  let digits := whole ++ placed.1
  if digits = [] ∨ !behind.2.all isSpace then none
  else some (Number.ofScientific signed.1 (digits.map digit) (behind.1 - placed.1.length))

/-- The double that a cell spells. -/
def double? (t : Text) : Option Float := (decimal? t).or (infinity? t)

/-- The truth value that a cell spells. -/
def flag? (t : Text) : Option Bool :=
  let word := t.lowerAscii
  if word = "true".toList then some true else if word = "false".toList then some false else none

/-- What missing reads as. -/
def missing : Cell := .real Double.nan

/-- The cells of a column that are all read by `read`, if they all can be. -/
def readAll (read : Text → Option Cell) (column : List (Option Text)) : Option (List Cell) :=
  column.mapM fun t =>
    match t with
    | none => some missing
    | some t => read t

/-- What the cells of a column can be read as when words of 64 binary digits are tried. -/
inductive WordKind where
  | words
  | noInteger
  | tooWide
  | mixed
deriving DecidableEq, Repr

/-- A number in a word with a sign. -/
def isSigned (n : Int) : Bool := -(pow2 63 : Int) ≤ n && n < pow2 63

/-- Cells that are not missing as words with a sign. -/
def signedKind : List Text → WordKind
  | [] => .words
  | t :: rest =>
    match integer? t with
    | none => .noInteger
    | some n => if isSigned n then signedKind rest else .tooWide

/-- Cells as words without a sign. `wide` tells of a number too wide for a word with a sign, `signs` of a minus sign, which is not
looked behind, and `gaps` of a missing cell. -/
def unsignedKind (wide signs gaps : Bool) : List (Option Text) → WordKind
  | [] => if wide && (signs || gaps) then .mixed else if signs then .tooWide else .words
  | none :: rest => unsignedKind wide signs true rest
  | some t :: rest =>
    if (t.dropWhile isSpace).head? = some '-' then unsignedKind wide true gaps rest
    else
      match integer? t with
      | none => .noInteger
      | some n => if (pow2 64 : Int) ≤ n then .tooWide else unsignedKind (wide || !isSigned n) signs gaps rest

/-- The integer without bounds that a cell spells, underscores between its digits left out. -/
def wideInteger? (t : Text) : Option Cell :=
  if t.all fun c => c.toNat < 0x80 then (Number.readInteger t).toOption.map Cell.whole else none

/-- The cells of a column of integers in words with a sign; beside missing cells they are doubles. -/
def signedCells (column : List (Option Text)) : Option (List Cell) :=
  let cell := fun n : Int => if column.contains none then .real (Quantity.whole n).nearest else Cell.whole n
  readAll (fun t => (integer? t).map cell) column

/-- A column of texts. -/
def textCells (column : List (Option Text)) : List Cell :=
  column.map fun t =>
    match t with
    | none => missing
    | some t => .text t

/-- The cells of a column of integers, or of the texts that come of integers in vain; `none` if it is left to the doubles. -/
def integerCells (texts : List Text) (column : List (Option Text)) : Option (List Cell) :=
  match signedKind (column.filterMap id) with
  | .words => signedCells column
  | .noInteger | .mixed => none
  | .tooWide =>
    match unsignedKind false false false column with
    | .words => readAll (fun t => (integer? t).map Cell.whole) column
    | .noInteger => none
    | .mixed => some (texts.map Cell.text)
    | .tooWide => some ((readAll wideInteger? column).getD (textCells column))

/-- The cells of a column. -/
def typed (texts : List Text) : List Cell :=
  let column := texts.map written?
  let fits := [integerCells texts column, readAll (fun t => (double? t).map Cell.real) column,
    readAll (fun t => (flag? t).map Cell.flag) column]
  (fits.findSome? id).getD (textCells column)

/-- The field at a place of a record. -/
def fieldAt (i : Nat) (record : List Text) : Text := (record[i]?).getD []

/-- The typed rows of a text of comma separated values. -/
def rows (t : Text) : Except CsvFault (List Row) :=
  (table t).map fun (header, records) =>
    let names := columns header
    let typedColumns := (List.range names.length).map fun i => typed (records.map (fieldAt i))
    (List.range records.length).map fun k =>
      Row.ofCells names (typedColumns.map fun cells => (cells[k]?).getD .null)

end VesselTraffic.Csv
