import VesselTraffic.Text.Basic

/-!
# Categories of faults

Every fault of the library belongs to one category. Callers decide by it whether a fault is theirs to absorb: a row reader takes
bad values, bad types and missing keys for a malformed row and lets everything else through. The name of a category is part of
the output, both in the reason of a malformed row and beside the message of a fault.
-/

namespace VesselTraffic

/-- What kind of failure a fault is. -/
inductive Category where
  | badValue
  | badType
  | missingKey
  | outOfRange
  | missingAttribute
  | system
  | zeroDivision
  | noFolder
  | notAFolder
  | tagBlock
  | noPriorSample
  | identityConflict
  | unknownTarget
  | emptyTable
  | malformedTable
deriving DecidableEq, Repr

namespace Category

/-- The name a category is reported under. -/
def name : Category → String
  | badValue => "ValueError"
  | badType => "TypeError"
  | missingKey => "KeyError"
  | outOfRange => "OverflowError"
  | missingAttribute => "AttributeError"
  | system => "OSError"
  | zeroDivision => "ZeroDivisionError"
  | noFolder => "FileNotFoundError"
  | notAFolder => "NotADirectoryError"
  | tagBlock => "CommentBlockError"
  | noPriorSample => "NoPriorSample"
  | identityConflict => "IdentityConflict"
  | unknownTarget => "UnknownTarget"
  | emptyTable => "EmptyDataError"
  | malformedTable => "ParserError"

end Category
end VesselTraffic
