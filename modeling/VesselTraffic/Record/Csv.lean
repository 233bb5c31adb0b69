import VesselTraffic.Fault.Category
import VesselTraffic.Text.Basic

/-!
# Comma separated records

A text of comma separated values is read character by character. A field that starts with a double quote lasts to the next lone
one and may hold commas and line breaks; a doubled quote inside stands for one. Only what stands before a NUL counts of a field.
The first record is the header. The records behind it may be shorter than the widest of the header and the first of them, and are
filled with empty fields, but not longer.

Lines end with a line feed, a carriage return or both. Lines that are empty or blank are skipped, but counted. A comma right behind
the lone carriage return of such a line is skipped with it. Skipped lines that end with lone carriage returns are taken back as
records of one field, and counted once more, if a line follows that begins with a blank and goes on.
-/

namespace VesselTraffic

/-- Why a text could not be read as records. -/
inductive CsvFault where
  | noColumns
  | tooManyFields (expected line saw : Nat)
  | openQuote (line : Nat)
deriving DecidableEq, Repr

namespace CsvFault

/-- The category of a fault of comma separated values. -/
def category : CsvFault → Category
  | noColumns => .emptyTable
  | _ => .malformedTable

/-- The wording of a fault of comma separated values. -/
def message : CsvFault → Text
  | noColumns => "No columns to parse from file".toList
  | tooManyFields expected line saw =>
    "Error tokenizing data. C error: Expected ".toList ++ Text.ofNat expected ++ " fields in line ".toList ++
      Text.ofNat line ++ ", saw ".toList ++ Text.ofNat saw ++ ['\n']
  | openQuote line => "Error tokenizing data. C error: EOF inside string starting at row ".toList ++ Text.ofNat line

end CsvFault

namespace Csv

/-- A record with the number of its last line. -/
structure Record where
  fields : List Text
  line : Nat
deriving DecidableEq, Repr

/-- Where in a record the scanner is. -/
inductive Spot where
  | recordStart
  | blankLine
  | fieldStart
  | inField
  | inQuotes
  | behindQuote
  | behindReturn
  | behindSkippedReturn
deriving DecidableEq, Repr

/-- What the scanner has read: the last field, the last record and all records, each last piece first, and the lines so far.
`held` is what it has skipped behind the last line that it cannot take back, the last character first. -/
structure Scan where
  spot : Spot
  held : Text
  field : Text
  fields : List Text
  records : List Record
  lines : Nat

namespace Scan

/-- The scanner before the first character. -/
def start : Scan := ⟨.recordStart, [], [], [], [], 0⟩

/-- A character added to the field. -/
def push (s : Scan) (c : Char) (spot : Spot) : Scan := { s with field := c :: s.field, spot }

/-- A character that is skipped, but may be taken back. -/
def hold (s : Scan) (c : Char) (spot : Spot) : Scan := { s with held := c :: s.held, spot }

/-- A field as far as it counts. -/
def counted (field : Text) : Text := field.takeWhile (· ≠ '\x00')

/-- The field ended. -/
def endField (s : Scan) (spot : Spot) : Scan :=
  { s with field := [], fields := counted s.field.reverse :: s.fields, spot }

/-- The record ended. -/
def endRecord (s : Scan) (spot : Spot) : Scan :=
  { s with fields := [], records := ⟨s.fields.reverse, s.lines + 1⟩ :: s.records, lines := s.lines + 1, spot }

/-- A blank line skipped at its line feed. -/
def skipLine (s : Scan) : Scan := { s with held := [], lines := s.lines + 1, spot := .recordStart }

/-- A blank line skipped at its carriage return. -/
def skipReturn (s : Scan) : Scan := { s with lines := s.lines + 1 }.hold '\r' .behindSkippedReturn

/-- A character at the start of a field. -/
def atFieldStart (s : Scan) (c : Char) : Scan :=
  if c = '\n' then (s.endField .fieldStart).endRecord .recordStart
  else if c = '\r' then s.endField .behindReturn
  else if c = '"' then { s with spot := .inQuotes }
  else if c = ',' then s.endField .fieldStart
  else s.push c .inField

/-- A character inside a field without quotes. -/
def inField (s : Scan) (c : Char) : Scan :=
  if c = '\n' then (s.endField .fieldStart).endRecord .recordStart
  else if c = '\r' then s.endField .behindReturn
  else if c = ',' then s.endField .fieldStart
  else s.push c .inField

/-- What was skipped taken back and read as the start of a field. The lines that are still to be taken back behind a record are
counted once more. -/
def takeBack (s : Scan) : Text → Scan
  | [] => s
  | '\r' :: ',' :: rest => (((s.endField .behindReturn).endRecord .recordStart).endField .fieldStart).takeBack rest
  | '\r' :: rest =>
    let ended := (s.endField .behindReturn).endRecord .recordStart
    { ended with lines := ended.lines + rest.count '\r' }.takeBack rest
  | c :: rest => (s.push c .inField).takeBack rest

/-- A character at the start of a line. -/
def atRecordStart (s : Scan) (c : Char) : Scan :=
  if c = '\n' then s.skipLine
  else if c = '\r' then s.skipReturn
  else if c = ' ' ∨ c = '\t' then s.hold c .blankLine
  else { s with held := [] }.atFieldStart c

/-- A character behind blanks at the start of a line. -/
def atBlankLine (s : Scan) (c : Char) : Scan :=
  if c = '\n' then s.skipLine
  else if c = '\r' then s.skipReturn
  else if c = ' ' ∨ c = '\t' then s.hold c .blankLine
  else ({ s with held := [] }.takeBack s.held.reverse).inField c

/-- The scanner after one more character. -/
def step (s : Scan) (c : Char) : Scan :=
  match s.spot with
  | .recordStart => s.atRecordStart c
  | .blankLine => s.atBlankLine c
  | .fieldStart => s.atFieldStart c
  | .inField => s.inField c
  | .inQuotes => if c = '"' then { s with spot := .behindQuote } else s.push c .inQuotes
  | .behindQuote => if c = '"' then s.push c .inQuotes else s.inField c
  | .behindReturn =>
    let ended := s.endRecord .recordStart
    if c = '\n' then ended else ended.atRecordStart c
  | .behindSkippedReturn =>
    if c = '\n' then { s with held := [], spot := .recordStart }
    else if c = ',' then s.hold c .recordStart
    else { s with spot := .recordStart }.atRecordStart c

/-- The records at the end of the text, in order, and the line of a quote that is still open. -/
def finish (s : Scan) : List Record × Option Nat :=
  match s.spot with
  | .recordStart | .blankLine | .behindSkippedReturn => (s.records.reverse, none)
  | .inQuotes => (s.records.reverse, some s.lines)
  | .behindReturn => ((s.endRecord .recordStart).records.reverse, none)
  | .fieldStart | .inField | .behindQuote =>
    (((s.endField .fieldStart).endRecord .recordStart).records.reverse, none)

end Scan

/-- The mark at the front of a text that says how it is encoded. -/
def byteOrderMark : Char := '\ufeff'

/-- The records of a text, and the line of a quote that is not closed. -/
def scan (t : Text) : List Record × Option Nat :=
  ((if t.head? = some byteOrderMark then t.drop 1 else t).foldl Scan.step Scan.start).finish

/-- Records filled up to a width, unless one is longer. -/
def fill (width : Nat) : List Record → Except CsvFault (List (List Text))
  | [] => .ok []
  | r :: rest =>
    if width < r.fields.length then .error (.tooManyFields width r.line r.fields.length)
    else (fill width rest).map fun more => (r.fields ++ List.replicate (width - r.fields.length) []) :: more

/-- The header of a text and the records behind it, all of one width or wider than the header. -/
def table (t : Text) : Except CsvFault (List Text × List (List Text)) :=
  match scan t with
  | ([], none) => .error .noColumns
  | ([], some line) => .error (.openQuote line)
  | (header :: rest, quote) =>
    let width := max header.fields.length ((rest.head?.map fun r => r.fields.length).getD 0)
    (fill width rest).bind fun rows =>
      match quote with
      | some line => .error (.openQuote line)
      | none => .ok (header.fields, rows)

/-- A name that is not in use: the name with the first free number behind it, counted from `count`. -/
def freeName (used : List Text) (name : Text) : (tries count : Nat) → Text × Nat
  | 0, count => (name, count)
  | tries + 1, count =>
    let candidate := name ++ '.' :: Text.ofNat count
    if used.contains candidate then freeName used name tries (count + 1) else (candidate, count + 1)

/-- Names without repetition: each name that came before gets a number. `seen` counts what came before. -/
def distinct (all : List Text) : (seen : List (Text × Nat)) → List Text → List Text
  | _, [] => []
  | seen, name :: rest =>
    match seen.lookup name with
    | none => name :: distinct all ((name, 1) :: seen) rest
    | some count =>
      let (fresh, next) := freeName all name (all.length + 1) count
      fresh :: distinct all ((fresh, 1) :: (name, next) :: seen) rest

/-- The names of the columns. An empty one is named by its place; names that repeat are told apart with the given ones first. -/
def columns (header : List Text) : List Text :=
  let placed := header.zipIdx
  let given := placed.filter fun p => p.1 ≠ []
  let unnamed := (placed.filter fun p => p.1 = []).map fun p => ("Unnamed: ".toList ++ Text.ofNat p.2, p.2)
  let ordered := given ++ unnamed
  let names := ordered.map Prod.fst
  let named := (ordered.map Prod.snd).zip (distinct names [] names)
  (List.range header.length).filterMap fun i => named.lookup i

end Csv
end VesselTraffic
