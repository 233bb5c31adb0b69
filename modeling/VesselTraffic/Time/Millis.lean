import VesselTraffic.Number.Double
import VesselTraffic.Time.Fault
import VesselTraffic.Time.RelaxedStamp

/-!
# Milliseconds

Times are compared as whole milliseconds since the start of 1970. An instant of a date is rounded down to them, provided that the
nanosecond clock can hold it. A stamp that is finer than microseconds is kept by that clock from the start, so both what its own
clock shows and its instant have to be within reach; the count just below is the mark for no time at all. In the other direction the
milliseconds are divided by a thousand to 53 binary digits and the quotient is rounded to microseconds, a half to even. Below 2³³ seconds
a number of milliseconds comes back from its date; later it may come back as the one before.
-/

namespace VesselTraffic.Millis

/-- The most nanoseconds that the nanosecond clock shows on either side of its start. -/
def nanosecondLimit : Int := pow2 63 - 1

/-- An instant in microseconds that the nanosecond clock can hold. -/
def fitsNanoseconds (micros : Int) : Bool := -nanosecondLimit ≤ micros * 1000 && micros * 1000 ≤ nanosecondLimit

/-- The milliseconds of a date and time of day. -/
def ofDateTime (t : DateTime) : Except TimeFault Int :=
  if fitsNanoseconds t.instant then .ok (t.instant / 1000) else .error .beyondNanoseconds

/-- The spellings of no time at all. -/
def isNoTime (t : Text) : Bool :=
  [[], ['N', 'a', 'T'], ['n', 'a', 't'], ['N', 'A', 'T'], ['n', 'a', 'n'], ['N', 'a', 'N'], ['N', 'A', 'N']].contains t

/-- Whether the nanosecond clock can hold what the clock of a stamp shows, to the last digit. -/
def showsNanoseconds (s : Stamp) : Bool :=
  let attos := s.time.clock * pow10 12 + s.attos
  let limit := nanosecondLimit * pow10 9
  decide (-limit ≤ attos ∧ attos ≤ limit)

/-- The nanoseconds from the start of 1970 to the instant of a stamp, rounded down. -/
def nanosOfStamp (s : Stamp) : Int := s.time.instant * 1000 + s.attos / pow10 9

/-- The milliseconds of a date stamp that is kept in nanoseconds; `t` is its text. -/
def ofFineStamp (t : Text) (s : Stamp) : Except TimeFault Int :=
  let nanos := nanosOfStamp s
  if !showsNanoseconds s || nanos < -nanosecondLimit - 1 || nanosecondLimit < nanos then .error (.unreadable t)
  else if nanos = -nanosecondLimit - 1 then .error .notATime
  else .ok (nanos / 1000000)

/-- The milliseconds of a date stamp. -/
def ofText (t : Text) : Except TimeFault Int :=
  if isNoTime t then .error .notATime
  else
    match Stamp.read? t with
    | none => .error (.unreadable t)
    | some s => if s.fine then ofFineStamp t s else ofDateTime s.time

/-- The microseconds nearest to a number of milliseconds that was divided by a thousand to 53 binary digits. -/
def toMicros (ms : Int) : Except NumberFault Int :=
  (Dyadic.quotient ms 1000).map fun seconds => roundHalfEven (seconds.num * 1000000) seconds.den

/-- A year as a counter of 32 binary digits shows it. -/
def countedYear (year : Int) : Int := year.bmod (pow2 32)

/-- The date and time of day of a number of milliseconds, in universal time. -/
def toDateTime (ms : Int) : Except TimeFault DateTime :=
  match toMicros ms with
  | .error e => .error (.number e)
  | .ok micros =>
    let t := DateTime.utc micros
    let seconds := micros / DateTime.second
    let year := t.date.year
    if ¬(-(pow2 63) ≤ seconds ∧ seconds ≤ pow2 63) then .error .beyondClock
    else if ¬(-(pow2 31) ≤ year - 1900 ∧ year - 1900 < pow2 31) then .error .beyondYearCount
    else if year < 1 ∨ 9999 < year then .error (.yearOutOfRange (countedYear year))
    else .ok t

end VesselTraffic.Millis
