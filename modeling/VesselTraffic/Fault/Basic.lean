import VesselTraffic.Chart.Folder
import VesselTraffic.Journal.Entry
import VesselTraffic.Journal.Style
import VesselTraffic.Journal.Template
import VesselTraffic.Record.Csv
import VesselTraffic.Record.Row
import VesselTraffic.Record.Table
import VesselTraffic.Retagging.Policy
import VesselTraffic.TagBlock.Fault
import VesselTraffic.Timeline.Store
import VesselTraffic.Tracking.Fault

/-!
# Faults and outcomes

A fault is one of the faults that the parts of the library know, with a category and a wording. An operation on a state ends in an
outcome: the state after it, its answer or the fault that it stopped at, and its journal. The state is there in either case, for
what was done before a fault stays done.
-/

namespace VesselTraffic

/-- Why an operation did not answer. -/
inductive Fault where
  | number (fault : NumberFault)
  | time (fault : TimeFault)
  | cell (fault : CellFault)
  | tag (fault : TagFault)
  | policy (fault : PolicyFault)
  | row (fault : RowFault)
  | csv (fault : CsvFault)
  | table (fault : TableFault)
  | kind (fault : KindFault)
  | query (fault : QueryFault)
  | store (fault : StoreFault)
  | tracking (fault : TrackingFault)
  | folder (fault : FolderFault)
  | style (fault : StyleFault)
  | template (fault : TemplateFault)
deriving DecidableEq, Repr

namespace Fault

/-- The category of a fault. -/
def category : Fault → Category
  | number e => e.category
  | time e => e.category
  | cell e => e.category
  | tag e => e.category
  | policy e => e.category
  | row e => e.category
  | csv e => e.category
  | table e => e.category
  | kind e => e.category
  | query e => e.category
  | store e => e.category
  | tracking e => e.category
  | folder e => e.category
  | style e => e.category
  | template e => e.category

/-- The wording of a fault. An integer in it may be one that cannot be written. -/
def message : Fault → Except NumberFault Text
  | number e => .ok e.message
  | time e => .ok e.message
  | cell e => .ok e.message
  | tag e => .ok e.message
  | policy e => .ok e.message
  | row e => .ok e.message
  | csv e => .ok e.message
  | table e => .ok e.message
  | kind e => .ok e.message
  | query e => e.message
  | store e => e.message
  | tracking e => e.message
  | folder e => .ok e.message
  | style e => .ok e.message
  | template e => .ok e.message

end Fault

/-- What an operation leaves: the state after it, its answer or its fault, and its journal. -/
structure Outcome (σ ρ : Type) where
  state : σ
  result : Except Fault ρ
  journal : Journal

end VesselTraffic
