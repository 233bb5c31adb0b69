import VesselTraffic.Record.Row

/-!
# Tables of untyped cells

A table has columns and rows of cells in their order. The longest row has a cell for every column; shorter rows have nothing in
the columns behind their last cell. A table without columns has no rows.
-/

namespace VesselTraffic

/-- Why cells do not make a table. -/
inductive TableFault where
  | columnCount (columns cells : Nat)
deriving DecidableEq, Repr

namespace TableFault

/-- The category of a fault of a table. -/
def category : TableFault → Category
  | columnCount _ _ => .badValue

/-- The wording of a fault of a table. -/
def message : TableFault → Text
  | columnCount columns cells =>
    Text.ofNat columns ++ " columns passed, passed data had ".toList ++ Text.ofNat cells ++ " columns".toList

end TableFault

namespace Table

/-- The length of the longest row. -/
def width (cells : List (List Cell)) : Nat := (cells.map List.length).foldl max 0

/-- The rows of a table. -/
def rows (columns : List Text) (cells : List (List Cell)) : Except TableFault (List Row) :=
  if cells = [] ∨ columns = [] ∧ width cells = 0 then .ok []
  else if width cells ≠ columns.length then .error (.columnCount columns.length (width cells))
  else .ok (cells.map fun row => Row.ofCells columns (row ++ List.replicate (columns.length - row.length) .null))

end Table
end VesselTraffic
