import VesselTraffic.Text.Basic

/-!
# Journal entries

What an operation has to say beside its answer it says in entries of a journal, in order, each with a level.
-/

namespace VesselTraffic

/-- How much an entry matters. -/
inductive Level where
  | debug
  | info
  | warning
  | error
  | critical
deriving DecidableEq, Repr

namespace Level

/-- The number that levels are compared by. -/
def rank : Level → Int
  | debug => 10
  | info => 20
  | warning => 30
  | error => 40
  | critical => 50

/-- The name of a level. -/
def name : Level → Text
  | debug => "DEBUG".toList
  | info => "INFO".toList
  | warning => "WARNING".toList
  | error => "ERROR".toList
  | critical => "CRITICAL".toList

end Level

/-- One entry of a journal. -/
structure Entry where
  level : Level
  text : Text
deriving DecidableEq, Repr

/-- What was said, in order. -/
abbrev Journal := List Entry

end VesselTraffic
