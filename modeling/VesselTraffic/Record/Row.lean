import VesselTraffic.Message.Basic
import VesselTraffic.Number.Quantity
import VesselTraffic.Record.Cell

/-!
# Rows as messages

A row of a table gives its columns cells. Its kind, sender and time make it a message; a kind that reports positions or static
data asks for further cells. Missing course, speed and heading become the values that say so, and a position with a missing
coordinate becomes the invalid one outside of the earth. A row that lacks a column it needs, or that has a cell which cannot be
read, becomes a failure with its raw text, if it has one, or all its cells. A fault that is out of range is not the row's: it
ends the reading.
-/

namespace VesselTraffic

/-- Why a row could not be made a message. -/
inductive RowFault where
  | missingColumn (name : Text)
  | cell (fault : CellFault)
  | time (fault : TimeFault)
deriving DecidableEq, Repr

namespace RowFault

/-- The category of a fault of a row. -/
def category : RowFault → Category
  | missingColumn _ => .missingKey
  | cell e => e.category
  | time e => e.category

/-- The wording of a fault of a row. -/
def message : RowFault → Text
  | missingColumn n => n.quoted
  | cell e => e.message
  | time e => e.message

/-- A fault that makes its row a failure and does not end the reading. -/
def isMalformedRow (e : RowFault) : Bool :=
  e.category = .missingKey || e.category = .badType || e.category = .badValue

/-- A fault as the reason of a failure. -/
def reason (e : RowFault) : Text := e.category.name.toList ++ ':' :: ' ' :: e.message

end RowFault

/-- The cells of a row by column, in column order. -/
abbrev Row := List (Text × Cell)

namespace Row

/-- A row with the cell of a column replaced in its place, or put last. -/
def write (column : Text) (cell : Cell) : Row → Row
  | [] => [(column, cell)]
  | e :: rest => if e.1 = column then (column, cell) :: rest else e :: write column cell rest

/-- The row of columns and cells. A column that is named twice keeps its place and takes the later cell. -/
def ofCells (columns : List Text) (cells : List Cell) : Row :=
  (columns.zip cells).foldl (fun row e => row.write e.1 e.2) []

/-- The cell of a column, nothing without the column. -/
def cell (row : Row) (column : String) : Cell := (row.lookup column.toList).getD .null

/-- The cell of a column that a row needs. -/
def need (row : Row) (column : String) : Except RowFault Cell :=
  match row.lookup column.toList with
  | some c => .ok c
  | none => .error (.missingColumn column.toList)

/-- The kinds of messages that report positions. -/
def positionKinds : List Int := [1, 2, 3, 18, 19]

/-- The kinds of messages that report static data. -/
def staticKinds : List Int := [5]

/-- The latitude of a position that is not available. -/
def latitudeNotAvailable : Float := 91

/-- The longitude of a position that is not available. -/
def longitudeNotAvailable : Float := 181

/-- Tenths of a degree that say that a course is not available. -/
def courseNotAvailable : Int := 3600

/-- Tenths of a knot that say that a speed is not available. -/
def speedNotAvailable : Int := 1023

/-- What is put for a dimension or a ship type that is missing. -/
def missingInteger : Int := 0

/-- A position with both its coordinates, or the one that is not available. -/
def position (lat lon : Cell) : Except CellFault (Position Quantity × Bool) := do
  let absent ← if (← lat.isMissing) then .ok true else lon.isMissing
  if absent then return (⟨.real latitudeNotAvailable, .real longitudeNotAvailable⟩, false)
  return (⟨.real (← lat.toDouble), .real (← lon.toDouble)⟩, true)

/-- The position report of a row. -/
def positionReport (row : Row) (kind mmsi timestamp : Int) : Except RowFault (PositionReport Quantity) := do
  let lat ← row.need "lat"
  let lon ← row.need "lon"
  let (place, valid) ← (position lat lon).mapError .cell
  let course ← row.need "course"
  let cog ← (course.tenthsOr courseNotAvailable).mapError .cell
  let speed ← row.need "speed"
  let sog ← (speed.tenthsOr speedNotAvailable).mapError .cell
  let heading ← ((row.cell "heading").integerOr headingNotAvailable).mapError .cell
  return { mmsi, timestamp, position := place, cog, sog, heading, valid, kind }

/-- The dimensions of a row. -/
def dimensions (row : Row) : Except CellFault Dimensions := do
  let toBow ← (row.cell "to_bow").integerOr missingInteger
  let toStern ← (row.cell "to_stern").integerOr missingInteger
  let toPort ← (row.cell "to_port").integerOr missingInteger
  let toStarboard ← (row.cell "to_starboard").integerOr missingInteger
  return { toBow, toStern, toPort, toStarboard }

/-- The static report of a row. -/
def staticReport (row : Row) (kind mmsi timestamp : Int) : Except CellFault StaticReport := do
  let name ← (row.cell "shipname").textOrEmpty
  let dimensions ← row.dimensions
  let shipType ← (row.cell "ship_type").integerOr missingInteger
  let callsign ← (row.cell "callsign").textOrEmpty
  return { mmsi, timestamp, name, dimensions, shipType, callsign, kind }

/-- The message of a row. -/
def message (row : Row) : Except RowFault (Message Quantity) := do
  let kind ← (← row.need "message_id").toInteger.mapError .cell
  let mmsi ← (← row.need "MMSI").toInteger.mapError .cell
  let timestamp ← (← row.need "timestamp").toMillis.mapError .time
  if kind ∈ positionKinds then return .position (← row.positionReport kind mmsi timestamp)
  if kind ∈ staticKinds then return .static (← (row.staticReport kind mmsi timestamp).mapError .cell)
  return .other { mmsi, timestamp, kind }

/-- The raw text of a row: its cell for that, or all its cells if that is missing. -/
def raw (row : Row) : Except RowFault Text :=
  ((row.cell "raw_message").isMissing.mapError .cell).bind fun missing =>
    (if missing then (Cell.record row).literal else (row.cell "raw_message").display).mapError fun e => .cell (.number e)

/-- The item of a row: its message, or the failure that its fault makes of it. -/
def item (row : Row) : Except RowFault (Item Quantity) :=
  match row.message with
  | .ok m => .ok (.message m)
  | .error e =>
    if e.isMalformedRow then row.raw.map fun raw => .failure { raw, reason := e.reason } else .error e

end Row

end VesselTraffic
