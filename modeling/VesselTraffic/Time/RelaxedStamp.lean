import VesselTraffic.Time.Stamp

/-!
# Relaxed date stamps

Some texts that are no stamps can still be read as one. A date without a day may have a time of day, which then is that of its
first day; a fraction may have any number of digits, of which the first six count; the minutes of an offset may be more than an
hour, as long as the offset is shorter than a day. All fields have two digits and the year has four. Behind a T or a blank a
date without a day may also go on with its missing fields.
-/

namespace VesselTraffic.Stamp

/-- How many of the fields of a date are given. -/
inductive Depth where
  | year
  | month
  | day
deriving DecidableEq, Repr

/-- A date that is in the calendar. -/
def valid? (d : Date) : Option Date :=
  if 1 ≤ d.year ∧ d.year ≤ 9999 ∧ 1 ≤ d.month ∧ d.month ≤ 12 ∧ 1 ≤ d.day ∧ d.day ≤ Date.daysIn d.year d.month then some d
  else none

/-- The fields of a date as far as they are given, parted by hyphens or not at all, and the rest. -/
def relaxedDate? (t : Text) : Option (Date × Depth × Rest) := do
  let (year, rest) ← year? t
  match rest with
  | '-' :: rest =>
    let (month, rest) ← field? false rest
    match rest with
    | '-' :: rest => (field? false rest).map fun (day, rest) => (⟨year, month, day⟩, .day, rest)
    | _ => some (⟨year, month, 1⟩, .month, rest)
  | _ =>
    match field? false rest with
    | none => some (⟨year, 1, 1⟩, .year, rest)
    | some (month, rest) => (field? false rest).map fun (day, rest) => (⟨year, month, day⟩, .day, rest)

/-- The microseconds of a fraction behind its point, or none without one, and the rest. -/
def relaxedFraction? : Text → Option (Nat × Rest)
  | '.' :: rest =>
    let digits := rest.takeWhile Char.isDigit
    if digits = [] then none else some (filledUp 6 (digits.take 6), rest.dropWhile Char.isDigit)
  | t => some (0, t)

/-- Hour, minute, second and microseconds, parted by colons or not at all, and the rest. Only a parted time may lack its
seconds. -/
def relaxedTime? (t : Text) : Option (Nat × Nat × Nat × Nat × Rest) := do
  let (hour, rest) ← within 0 23 (field? false t)
  match rest with
  | ':' :: rest =>
    let (minute, rest) ← within 0 59 (field? false rest)
    match rest with
    | ':' :: rest =>
      let (sec, rest) ← within 0 59 (field? false rest)
      (relaxedFraction? rest).map fun (micros, rest) => (hour, minute, sec, micros, rest)
    | _ => some (hour, minute, 0, 0, rest)
  | _ =>
    let (minute, rest) ← within 0 59 (field? false rest)
    let (sec, rest) ← within 0 59 (field? false rest)
    (relaxedFraction? rest).map fun (micros, rest) => (hour, minute, sec, micros, rest)

/-- An offset shorter than a day with its sign, or none at the end of the text. -/
def relaxedOffset? : Text → Option (Option Int)
  | [] => some none
  | ['Z'] => some (some 0)
  | c :: rest =>
    if c = '+' ∨ c = '-' then
      match field? false rest with
      | none => none
      | some (hours, rest) =>
        match (if rest = [] then some (0, []) else field? false (if rest.head? = some ':' then rest.drop 1 else rest)) with
        | some (minutes, []) =>
          if hours * 60 + minutes < 1440 then some (some (offsetOf (if c = '-' then -1 else 1) hours minutes)) else none
        | _ => none
    else none

/-- A date that goes on behind a T or a blank: the day of a month, or the month of a year and a day behind a hyphen. -/
def continued? (d : Date) (depth : Depth) (t : Text) : Option Date :=
  match depth, field? false t with
  | .month, some (day, []) => valid? ⟨d.year, d.month, day⟩
  | .year, some (month, []) => valid? ⟨d.year, month, 1⟩
  | .year, some (month, '-' :: rest) =>
    match field? false rest with
    | some (day, []) => valid? ⟨d.year, month, day⟩
    | _ => none
  | _, _ => none

/-- The stamp that a text spells by the relaxed rules. -/
def relaxed? (t : Text) : Option Stamp := do
  let (d, depth, rest) ← relaxedDate? t
  match rest with
  | c :: rest =>
    if c = 'T' ∨ c = ' ' then
      match relaxedTime? rest with
      | some (hour, minute, sec, micros, rest) =>
        let d ← valid? d
        (relaxedOffset? rest).map fun offset => ⟨DateTime.ofFields d hour minute sec micros offset, 0, false⟩
      | none => (continued? d depth rest).map fun d => ⟨DateTime.ofFields d 0 0 0 0 none, 0, false⟩
    else none
  | [] => none

/-- The stamp that a text spells, by the relaxed rules if need be. -/
def read? (t : Text) : Option Stamp := (ofText? t).or (relaxed? t)

end VesselTraffic.Stamp
