import VesselTraffic.Number.Quantity
import VesselTraffic.Timeline.Basic

/-!
# Timelines as tables

A timeline is shown as a table with a row for each sample. A column with a double holds doubles, unless it has an integer that no
word of 64 binary digits holds, or one that needs such a word without a sign beside a negative one; then its quantities stay as
they are, as do those of a column of integers. Every integer is made a double on the way, as long as the column may still hold
doubles, and has to be near one.
-/

namespace VesselTraffic.Timeline

/-- The columns of the table. -/
def columns : List String := ["timestamp", "lat", "lon", "COG", "SOG", "heading"]

/-- The doubles of the column behind those that have been read. `large` tells of an integer that needs a word without a sign,
`negative` of one with a sign; `none` stands for a column whose quantities stay as they are. -/
def doubles (large negative : Bool) : List Quantity → Except NumberFault (Option (List Float))
  | [] => .ok (some [])
  | .real x :: rest => (doubles large negative rest).map fun xs => xs.map (x :: ·)
  | .whole n :: rest =>
    (Double.ofInt n).bind fun x =>
      let large := large || (pow2 63 : Int) ≤ n
      let negative := negative || n < 0
      if !Quantity.isWord n || (large && negative) then .ok none
      else (doubles large negative rest).map fun xs => xs.map (x :: ·)

/-- An integer. -/
def isWhole : Quantity → Bool
  | .whole _ => true
  | .real _ => false

/-- A column as the table holds it. -/
def uniform (column : List Quantity) : Except NumberFault (List Quantity) :=
  (doubles false false column).map fun xs =>
    match xs with
    | some xs => if column.all isWhole then column else xs.map Quantity.real
    | none => column

/-- The rows of the table, one cell for each column. -/
def rows (t : Timeline Quantity) : Except NumberFault (List (List Quantity)) := do
  let fields : List (Sample Quantity → Quantity) :=
    [fun s => .whole s.timestamp, fun s => s.position.lat, fun s => s.position.lon, fun s => s.cog, fun s => s.sog,
      fun s => .whole s.heading]
  let cells ← fields.mapM fun field => uniform (t.samples.map field)
  return (List.range t.size).map fun i => cells.filterMap fun column => column[i]?

end VesselTraffic.Timeline
