import VesselTraffic.Number.Fault

/-!
# Faults of reading and converting times

What is given as a time may be no time at all, or a time that one of the two clocks cannot hold: the nanosecond clock that dates
are read with, or the calendar of the years 1 to 9999 that instants are shown in.
-/

namespace VesselTraffic

/-- Why a time could not be read or converted. -/
inductive TimeFault where
  | unreadable (shown : Text)
  | notATime
  | truthValue
  | beyondNanoseconds
  | beyondClock
  | beyondYearCount
  | yearOutOfRange (year : Int)
  | number (fault : NumberFault)
deriving DecidableEq, Repr

namespace TimeFault

/-- The category of a time fault. -/
def category : TimeFault → Category
  | unreadable _ | notATime | yearOutOfRange _ => .badValue
  | truthValue => .badType
  | beyondNanoseconds | beyondClock => .outOfRange
  | beyondYearCount => .system
  | number e => e.category

/-- The wording of a time fault. -/
def message : TimeFault → Text
  | unreadable t => "Provided date '".toList ++ t ++ "' is neither ISO 8601 compliant nor UNIX milliseconds.".toList
  | notATime => "Timestamp must not be NaT.".toList
  | truthValue => "Boolean is not a valid timestamp.".toList
  | beyondNanoseconds =>
    "Cannot convert Timestamp to nanoseconds without overflow. Use `.asm8.view('i8')` ".toList ++
      "to cast represent Timestamp in its own unit (here, us).".toList
  | beyondClock => "timestamp out of range for platform time_t".toList
  | beyondYearCount => "[Errno 75] Value too large for defined data type".toList
  | yearOutOfRange y => "year ".toList ++ Text.ofInt y ++ " is out of range".toList
  | number e => e.message

end TimeFault
end VesselTraffic
