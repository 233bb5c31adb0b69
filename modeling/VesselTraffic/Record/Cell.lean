import VesselTraffic.Number.Reader
import VesselTraffic.Number.Shortest
import VesselTraffic.Time.Millis

/-!
# Untyped values

A cell of a table, a time that is asked about, the value of a tag and the argument of a log message all come untyped: they may be
nothing, a truth value, an integer, a double, a text, a date, or a list or a record of such values. A cell has two spellings. Its
`display` is what it reads as alone, its `literal` what it reads as inside a list or record, where texts are quoted. It has none if
there is an integer in it that cannot be written.

A cell is missing if it is nothing or a double that is not a number. Reading a missing cell gives a default; reading any other
cell as a number succeeds or says why it cannot.
-/

namespace VesselTraffic

/-- An untyped value. -/
inductive Cell where
  | null
  | flag (b : Bool)
  | whole (n : Int)
  | real (x : Float)
  | text (t : Text)
  | time (t : DateTime)
  | list (cells : List Cell)
  | record (fields : List (Text × Cell))
deriving Inhabited

/-- Why a cell could not be read as what it is used for. -/
inductive CellFault where
  | number (fault : NumberFault)
  | notInteger (kind : String)
  | notDecimal (kind : String)
  | ambiguous
  | ambiguousEmpty
deriving DecidableEq, Repr

namespace CellFault

/-- The category of a cell fault. -/
def category : CellFault → Category
  | number e => e.category
  | notInteger _ | notDecimal _ => .badType
  | ambiguous | ambiguousEmpty => .badValue

/-- The wording of a cell fault. -/
def message : CellFault → Text
  | number e => e.message
  | notInteger k =>
    ("int() argument must be a string, a bytes-like object or a real number, not '" ++ k ++ "'").toList
  | notDecimal k => ("float() argument must be a string or a real number, not '" ++ k ++ "'").toList
  | ambiguous =>
    "The truth value of an array with more than one element is ambiguous. Use a.any() or a.all()".toList
  | ambiguousEmpty =>
    "The truth value of an empty array is ambiguous. Use `array.size > 0` to check that an array is not empty.".toList

end CellFault

namespace Cell

/-- The name of the kind of a cell. -/
def kind : Cell → String
  | null => "NoneType"
  | flag _ => "bool"
  | whole _ => "int"
  | real _ => "float"
  | text _ => "str"
  | time _ => "datetime.datetime"
  | list _ => "list"
  | record _ => "dict"

/-- A duration in microseconds, the days split off so that the rest is not negative; a part that is zero is left out. -/
def durationLiteral (micros : Int) : Text :=
  let seconds := micros / DateTime.second
  let parts := [("days=", seconds / DateTime.day), ("seconds=", seconds % DateTime.day),
    ("microseconds=", micros % DateTime.second)]
  let written := (parts.filter fun p => p.2 ≠ 0).map fun p => p.1.toList ++ Text.ofInt p.2
  "datetime.timedelta(".toList ++ (if written = [] then ['0'] else [',', ' '].intercalate written) ++ [')']

/-- A clock's offset inside a date literal. -/
def offsetLiteral (offset : Int) : Text :=
  "tzinfo=".toList ++
    if offset = 0 then "datetime.timezone.utc".toList
    else "datetime.timezone(".toList ++ durationLiteral offset ++ [')']

/-- A date inside a list or record: its fields in order, trailing seconds and microseconds left out if they are zero. -/
def timeLiteral (t : DateTime) : Text :=
  let d := t.date
  let s := t.secondOfDay
  let fields := [d.year.toNat, d.month, d.day, s / 3600, s / 60 % 60]
  let rest := if t.micro ≠ 0 then [s % 60, t.micro] else if s % 60 ≠ 0 then [s % 60] else []
  let offset := match t.offset with
    | none => []
    | some o => [offsetLiteral o]
  "datetime.datetime(".toList ++ [',', ' '].intercalate ((fields ++ rest).map Text.ofNat ++ offset) ++ [')']

/-- The spelling of a truth value. -/
def flagText (b : Bool) : Text := if b then "True".toList else "False".toList

mutual

/-- A cell as it is spelled inside a list or record. -/
def literal : Cell → Except NumberFault Text
  | null => .ok "None".toList
  | flag b => .ok (flagText b)
  | whole n => Number.writeInteger n
  | real x => .ok (Double.toText x)
  | text t => .ok t.quoted
  | time t => .ok (timeLiteral t)
  | list cells => (literals cells).map fun shown => '[' :: [',', ' '].intercalate shown ++ [']']
  | record fields => (fieldLiterals fields).map fun shown => '\x7b' :: [',', ' '].intercalate shown ++ ['\x7d']

/-- Cells one by one as they are spelled inside a list. -/
def literals : List Cell → Except NumberFault (List Text)
  | [] => .ok []
  | c :: rest => (literal c).bind fun shown => (literals rest).map (shown :: ·)

/-- Fields one by one as they are spelled inside a record. -/
def fieldLiterals : List (Text × Cell) → Except NumberFault (List Text)
  | [] => .ok []
  | (k, c) :: rest => (literal c).bind fun shown => (fieldLiterals rest).map ((k.quoted ++ ':' :: ' ' :: shown) :: ·)

end

/-- A cell as it is spelled alone. -/
def display : Cell → Except NumberFault Text
  | text t => .ok t
  | time t => .ok (t.write ' ')
  | c => literal c

/-- What two lists of lengths begin with alike. -/
def commonPrefix : List Nat → List Nat → List Nat
  | m :: ms, n :: ns => if m = n then m :: commonPrefix ms ns else []
  | _, _ => []

mutual

/-- The lengths of nested lists from the outside in, as far as all lists at one depth are equally long. -/
def shape : Cell → List Nat
  | list [] => [0]
  | list (c :: rest) => (rest.length + 1) :: sharedShape (shape c) rest
  | _ => []

/-- The lengths that cells share with those that are given. -/
def sharedShape (lengths : List Nat) : List Cell → List Nat
  | [] => lengths
  | c :: rest => sharedShape (commonPrefix lengths (shape c)) rest

end

/-- The number of cells of evenly nested lists. -/
def size (c : Cell) : Nat := c.shape.foldl (· * ·) 1

/-- The cell inside lists of one cell each. -/
def innermost : Cell → Cell
  | list [c] => innermost c
  | c => c

/-- A missing cell that is not a list. -/
def isAbsent : Cell → Bool
  | null => true
  | real x => Double.isNaN x
  | _ => false

/-- A missing cell. Nested lists of one cell are missing if that cell is; of no cell or of more than one it cannot be said. -/
def isMissing : Cell → Except CellFault Bool
  | list cells =>
    match size (list cells) with
    | 0 => .error .ambiguousEmpty
    | 1 => .ok (isAbsent (innermost (list cells)))
    | _ => .error .ambiguous
  | c => .ok (isAbsent c)

/-- A cell as an integer: a double loses its fraction, a text must spell an integer. -/
def toInteger : Cell → Except CellFault Int
  | flag b => .ok (if b then 1 else 0)
  | whole n => .ok n
  | real x => (Double.trunc x).mapError .number
  | text t => (Number.readInteger t).mapError .number
  | c => .error (.notInteger c.kind)

/-- A cell as a double: an integer is rounded to the nearest one, a text must spell a decimal. -/
def toDouble : Cell → Except CellFault Float
  | flag b => .ok (if b then 1 else 0)
  | whole n => (Double.ofInt n).mapError .number
  | real x => .ok x
  | text t => (Number.readDecimal t).mapError .number
  | c => .error (.notDecimal c.kind)

/-- What a cell holds by `read`, or the default if it is missing. -/
def orDefault {α : Type} (c : Cell) (default : α) (read : Cell → Except CellFault α) : Except CellFault α :=
  c.isMissing.bind fun missing => if missing then .ok default else read c

/-- A cell as an integer, or the default if it is missing. -/
def integerOr (c : Cell) (default : Int) : Except CellFault Int := c.orDefault default toInteger

/-- A cell as it is spelled alone, or the empty text if it is missing. -/
def textOrEmpty (c : Cell) : Except CellFault Text := c.orDefault [] fun c => c.display.mapError .number

/-- A double in whole tenths, rounded half to even. -/
def toTenths (c : Cell) : Except CellFault Int :=
  c.toDouble.bind fun x => (Double.round (x * 10)).mapError .number

/-- A cell in whole tenths, or the default if it is missing. -/
def tenthsOr (c : Cell) (default : Int) : Except CellFault Int := c.orDefault default toTenths

/-- A cell as a time in milliseconds. A number counts milliseconds; a text is a date stamp. -/
def toMillis : Cell → Except TimeFault Int
  | null => .error .notATime
  | flag _ => .error .truthValue
  | whole n => .ok n
  | real x => (Double.round x).mapError .number
  | text t => Millis.ofText t
  | time t => Millis.ofDateTime t
  | c => (c.display.mapError .number).bind fun shown => .error (.unreadable shown)

end Cell
end VesselTraffic
