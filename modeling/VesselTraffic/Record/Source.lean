import VesselTraffic.Fault.Basic
import VesselTraffic.Record.Column

/-!
# Sources of items

A source gives items in order and may end in a fault. The rows of a table give one item each, up to the first row with a fault
that is not the row's own.
-/

namespace VesselTraffic

/-- Items in order, the fault that ended them if one did, and what was said when the source was opened. -/
structure Source (α : Type) where
  items : List (Item α)
  fault : Option Fault
  journal : Journal

namespace Source

/-- The source of items that are there already. -/
def ofItems {α : Type} (items : List (Item α)) : Source α := ⟨items, none, []⟩

/-- The items of rows, up to the first fault that ends the reading. -/
def ofRows : List Row → Source Quantity
  | [] => ⟨[], none, []⟩
  | row :: rest =>
    match row.item with
    | .error e => ⟨[], some (.row e), []⟩
    | .ok i =>
      let more := ofRows rest
      ⟨i :: more.items, more.fault, []⟩

/-- The items of a table of untyped cells. -/
def ofTable (columns : List Text) (cells : List (List Cell)) : Source Quantity :=
  match Table.rows columns cells with
  | .error e => ⟨[], some (.table e), []⟩
  | .ok rows => ofRows rows

/-- The entry for a text of comma separated values that was opened. -/
def openRemark (name : Text) (rows : Nat) : Entry :=
  ⟨.debug, "Read ".toList ++ Text.ofNat rows ++ " rows from ".toList ++ name⟩

/-- The items of a text of comma separated values, which has a name in the journal. -/
def ofCsv (name t : Text) : Source Quantity :=
  match Csv.rows t with
  | .error e => ⟨[], some (.csv e), []⟩
  | .ok rows => { ofRows rows with journal := [openRemark name rows.length] }

end Source
end VesselTraffic
