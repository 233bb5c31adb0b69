import VesselTraffic.Time.DateTime

/-!
# Reading dates with a time of day

`DateTime.ofText?` reads what `DateTime.toText` writes, and the shorter spellings beside it. A date is a year with month and day or
with week and day of the week, its fields parted by hyphens or not at all. Any one character stands between date and time. A time
of day has an hour, maybe minutes, maybe seconds and maybe a fraction behind a point or a comma, of which six digits count; it is
followed by its offset, a Z or a sign with a time that is shorter than a day.
-/

namespace VesselTraffic.DateTime

/-- The number that exactly `count` digits at the front spell, and the rest. -/
def digits? (count : Nat) (t : Text) : Option (Nat × Text) :=
  let front := t.take count
  if front.length = count ∧ front.all Char.isDigit then
    some (front.foldl (fun n c => 10 * n + (c.toNat - '0'.toNat)) 0, t.drop count)
  else none

/-- The rest of a text behind a mark, which is there only in parted texts. -/
def behindMark? (parted : Bool) (mark : Char) (t : Text) : Option Text :=
  if parted then if t.head? = some mark then some t.tail else none else some t

/-- The Monday of a week; the first week of a year is the one with 4 January. -/
def mondayOfWeek (year week : Nat) : Int :=
  let days := Date.toDays ⟨year, 1, 4⟩
  days - (days + 3) % 7 + 7 * ((week : Int) - 1)

/-- A date with month and day, and the rest. -/
def calendarDate? (year : Nat) (parted : Bool) (t : Text) : Option (Date × Text) := do
  let (month, t) ← digits? 2 (← behindMark? parted '-' t)
  let (day, t) ← digits? 2 (← behindMark? parted '-' t)
  if 1 ≤ month ∧ month ≤ 12 ∧ 1 ≤ day ∧ day ≤ Date.daysIn year month then some (⟨year, month, day⟩, t) else none

/-- The date of a week and a day of it. -/
def weekDate? (year week day : Nat) : Option Date :=
  let monday := mondayOfWeek year week
  let inYear := decide (1 ≤ week ∧ (week ≤ 52 ∨ week = 53 ∧ monday < mondayOfWeek (year + 1) 1))
  if inYear ∧ 1 ≤ day ∧ day ≤ 7 then some (Date.ofDays (monday + day - 1)) else none

/-- A date with a week and, unless it is Monday, the day of the week, and the rest. -/
def dateOfWeek? (year : Nat) (parted : Bool) (t : Text) : Option (Date × Text) := do
  let (week, t) ← digits? 2 t
  match (behindMark? parted '-' t).bind (digits? 1) with
  | some (day, rest) => (weekDate? year week day).map (·, rest)
  | none => (weekDate? year week 1).map (·, t)

/-- A date and the rest. -/
def date? (t : Text) : Option (Date × Text) := do
  let (year, t) ← digits? 4 t
  if year = 0 then none
  else
    match t with
    | '-' :: 'W' :: rest => dateOfWeek? year true rest
    | 'W' :: rest => dateOfWeek? year false rest
    | '-' :: _ => calendarDate? year true t
    | _ => calendarDate? year false t

/-- The microseconds of a fraction behind its mark. -/
def fraction? : Text → Option Nat
  | [] => some 0
  | c :: rest =>
    if (c = '.' ∨ c = ',') ∧ rest ≠ [] ∧ rest.all Char.isDigit then
      (digits? 6 (Text.padRight '0' 6 (rest.take 6))).map Prod.fst
    else none

/-- Hour, minute, second and microseconds of a whole text. -/
def clock? (t : Text) : Option (Nat × Nat × Nat × Nat) := do
  let (hour, t) ← digits? 2 t
  if t = [] then return (hour, 0, 0, 0)
  let parted := t.head? == some ':'
  let (minute, t) ← digits? 2 (← behindMark? parted ':' t)
  if t = [] then return (hour, minute, 0, 0)
  let (sec, t) ← digits? 2 (← behindMark? parted ':' t)
  return (hour, minute, sec, ← fraction? t)

/-- The microseconds of hours, minutes, seconds and microseconds. -/
def microsOf (hour minute sec micros : Nat) : Int := (hour * 3600 + minute * 60 + sec : Nat) * second + micros

/-- The offset that a text spells, none if it is empty. -/
def offset? : Text → Option (Option Int)
  | [] => some none
  | ['Z'] => some (some 0)
  | c :: rest => do
    let (hour, minute, sec, micros) ← clock? rest
    let n := microsOf hour minute sec micros
    if c ≠ 'Z' ∧ n < day * second then return some (if c = '-' then -n else n) else none

/-- A mark that begins an offset. -/
def isOffsetMark (c : Char) : Bool := c = '+' || c = '-' || c = 'Z'

/-- The date and time of day that a text spells. -/
def ofText? (t : Text) : Option DateTime := do
  let (d, t) ← date? t
  match t with
  | [] => return ofFields d 0 0 0 0 none
  | _ :: time =>
    let (hour, minute, sec, micros) ← clock? (time.takeWhile fun c => !isOffsetMark c)
    let offset ← offset? (time.dropWhile fun c => !isOffsetMark c)
    if hour < 24 ∧ minute < 60 ∧ sec < 60 then return ofFields d hour minute sec micros offset else none

example : (ofText? "2021-08-02T10:11:12,5-00:00:30.5".toList).map toText =
    some "2021-08-02T10:11:12.500000-00:00:30.500000".toList := by decide +kernel
example : (ofText? "2020W537 07".toList).map toText = some "2021-01-03T07:00:00".toList := by decide +kernel

end VesselTraffic.DateTime
