import VesselTraffic.Text.Basic
import VesselTraffic.Time.Calendar

/-!
# Dates with a time of day

A date with a time of day is the count of microseconds that its clock shows since the start of 1970, and the microseconds that
this clock is ahead of universal time. A clock without a known offset is read as universal time.
-/

namespace VesselTraffic

/-- A date with a time of day, on a clock with or without a known offset from universal time. -/
structure DateTime where
  clock : Int
  offset : Option Int
deriving DecidableEq, Repr

namespace DateTime

/-- Microseconds in a second. -/
def second : Int := 1000000

/-- Seconds in a day. -/
def day : Int := 86400

/-- Microseconds since the start of 1970 in universal time. -/
def instant (t : DateTime) : Int := t.clock - t.offset.getD 0

/-- The date and time of day of universal time. -/
def utc (micros : Int) : DateTime := ⟨micros, some 0⟩

/-- The date on the clock. -/
def date (t : DateTime) : Date := Date.ofDays (t.clock / (day * second))

/-- The seconds of the day on the clock. -/
def secondOfDay (t : DateTime) : Nat := (t.clock / second % day).toNat

/-- The microseconds of the second on the clock. -/
def micro (t : DateTime) : Nat := (t.clock % second).toNat

/-- The date and time of day at which a clock shows the given fields. -/
def ofFields (d : Date) (hour minute sec micros : Nat) (offset : Option Int) : DateTime :=
  ⟨(d.toDays * day + (hour * 3600 + minute * 60 + sec : Nat)) * second + micros, offset⟩

/-- Microseconds behind a point, unless they are zero. -/
def fractionText (micros : Nat) : Text := if micros = 0 then [] else '.' :: Text.ofNatPadded 6 micros

/-- Hours, minutes and, unless they are zero, seconds and microseconds of an offset, with its sign. -/
def offsetText (offset : Int) : Text :=
  let micros := offset.natAbs % second.natAbs
  let n := offset.natAbs / second.natAbs
  let seconds := if n % 60 = 0 ∧ micros = 0 then [] else ':' :: Text.ofNatPadded 2 (n % 60) ++ fractionText micros
  (if offset < 0 then '-' else '+') :: Text.ofNatPadded 2 (n / 3600) ++ ':' :: Text.ofNatPadded 2 (n / 60 % 60) ++ seconds

/-- The date, the given mark, the time of day, with microseconds unless they are zero, and the offset if it is known. -/
def write (mark : Char) (t : DateTime) : Text :=
  let d := t.date
  let s := t.secondOfDay
  let offset := match t.offset with
    | none => []
    | some o => offsetText o
  Text.ofNatPadded 4 d.year.toNat ++ '-' :: Text.ofNatPadded 2 d.month ++ '-' :: Text.ofNatPadded 2 d.day ++ mark ::
    Text.ofNatPadded 2 (s / 3600) ++ ':' :: Text.ofNatPadded 2 (s / 60 % 60) ++ ':' :: Text.ofNatPadded 2 (s % 60) ++
    fractionText t.micro ++ offset

/-- The spelling with a T between date and time. -/
def toText (t : DateTime) : Text := write 'T' t

end DateTime
end VesselTraffic
