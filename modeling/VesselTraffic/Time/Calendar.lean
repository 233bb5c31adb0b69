/-!
# The calendar

Days are counted from 1 January 1970 in the Gregorian calendar, carried on without end in both directions. A year is taken to
begin in March, so that the leap day is its last day and the lengths of the months follow one linear rule; 400 years have 146097
days.
-/

namespace VesselTraffic

/-- A day of the calendar. -/
structure Date where
  year : Int
  month : Nat
  day : Nat
deriving DecidableEq, Repr

namespace Date

/-- A year with a leap day. -/
def isLeap (year : Int) : Bool := year % 4 = 0 && (year % 100 != 0 || year % 400 = 0)

/-- The length of a month. -/
def daysIn (year : Int) (month : Nat) : Nat :=
  if month = 2 then if isLeap year then 29 else 28
  else if month = 4 ∨ month = 6 ∨ month = 9 ∨ month = 11 then 30
  else 31

/-- The days from 1 January 1970 to a date. -/
def toDays (d : Date) : Int :=
  let year := if d.month ≤ 2 then d.year - 1 else d.year
  let cycle := year / 400
  let yearOfCycle := year % 400
  let dayOfYear : Int := ((153 * ((d.month + 9) % 12) + 2) / 5 + d.day : Nat) - 1
  let dayOfCycle := yearOfCycle * 365 + yearOfCycle / 4 - yearOfCycle / 100 + dayOfYear
  cycle * 146097 + dayOfCycle - 719468

/-- The date a number of days after 1 January 1970. -/
def ofDays (days : Int) : Date :=
  let shifted := days + 719468
  let cycle := shifted / 146097
  let dayOfCycle := shifted % 146097
  let yearOfCycle := (dayOfCycle - dayOfCycle / 1460 + dayOfCycle / 36524 - dayOfCycle / 146096) / 365
  let dayOfYear := dayOfCycle - (365 * yearOfCycle + yearOfCycle / 4 - yearOfCycle / 100)
  let monthFromMarch := (5 * dayOfYear + 2) / 153
  let day := dayOfYear - (153 * monthFromMarch + 2) / 5 + 1
  let month := if monthFromMarch < 10 then monthFromMarch + 3 else monthFromMarch - 9
  ⟨yearOfCycle + cycle * 400 + if month ≤ 2 then 1 else 0, month.toNat, day.toNat⟩

example : toDays ⟨1970, 1, 1⟩ = 0 ∧ toDays ⟨2000, 2, 29⟩ = 11016 ∧ toDays ⟨1, 1, 1⟩ = -719162 := by decide
example : ofDays 11016 = ⟨2000, 2, 29⟩ ∧ ofDays (-1) = ⟨1969, 12, 31⟩ ∧ ofDays 18841 = ⟨2021, 8, 2⟩ := by decide

end Date
end VesselTraffic
