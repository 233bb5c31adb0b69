import VesselTraffic.Time.DateTime

/-!
# Date stamps

A stamp is a date, down to the year, the month or the day, and behind a full date a time of day, down to the hour, the minute,
the second or a fraction of it, with or without an offset. The fields of a date are all parted by one mark or not at all, those
of a time by colons or not at all; parted fields may have one digit, the others have two. A fraction may have eighteen digits:
six count microseconds, twelve more the attoseconds below them.
-/

namespace VesselTraffic

/-- A date stamp: its time in microseconds, the attoseconds below them, and whether its fraction is written finer than
microseconds. -/
structure Stamp where
  time : DateTime
  attos : Nat
  fine : Bool
deriving DecidableEq, Repr

namespace Stamp

/-- The marks that may part year, month and day. -/
def dateMarks : Text := ['-', '.', '/', '\\', ' ']

/-- White space inside a stamp. -/
def isSpace (c : Char) : Bool := c = ' ' || ('\t' ≤ c && c ≤ '\r')

/-- The value of an ASCII digit. -/
def digit? (c : Char) : Option Nat := if c.isDigit then some (c.toNat - '0'.toNat) else none

/-- A field of two digits, or of one if `short` allows it, and the rest. -/
def field? (short : Bool) : Text → Option (Nat × Text)
  | a :: b :: rest =>
    match digit? a, digit? b with
    | some x, some y => some (10 * x + y, rest)
    | some x, none => if short then some (x, b :: rest) else none
    | none, _ => none
  | [a] => if short then (digit? a).map (·, []) else none
  | [] => none

/-- A year of four digits and the rest. -/
def year? (t : Text) : Option (Nat × Text) :=
  match field? false t with
  | some (century, rest) => (field? false rest).map fun (y, more) => (100 * century + y, more)
  | none => none

/-- A field that is in range. -/
def within (low high : Nat) (field : Option (Nat × Text)) : Option (Nat × Text) :=
  field.filter fun p => low ≤ p.1 ∧ p.1 ≤ high

/-- The part of a stamp behind its date or time fields that is still to be read. -/
abbrev Rest := Text

/-- A date whose fields are parted by `mark`, from the month on. -/
def partedDate? (year : Nat) (mark : Char) (t : Text) : Option (Date × Rest) :=
  match within 1 12 (field? true t) with
  | none => none
  | some (month, []) => some (⟨year, month, 1⟩, [])
  | some (month, c :: rest) =>
    if c = mark then
      (within 1 (Date.daysIn year month) (field? true rest)).map fun (day, more) => (⟨year, month, day⟩, more)
    else none

/-- A date whose fields are not parted, from the month on; it has a day. -/
def plainDate? (year : Nat) (t : Text) : Option (Date × Rest) :=
  match within 1 12 (field? false t) with
  | none => none
  | some (month, rest) =>
    (within 1 (Date.daysIn year month) (field? false rest)).map fun (day, more) => (⟨year, month, day⟩, more)

/-- A date, and the text behind it if it has a day. -/
def date? (t : Text) : Option (Date × Rest) :=
  match within 1 9999 (year? t) with
  | none => none
  | some (year, []) => some (⟨year, 1, 1⟩, [])
  | some (year, c :: rest) =>
    if c.isDigit then plainDate? year (c :: rest)
    else if c ∈ dateMarks then partedDate? year c rest
    else none

/-- An offset of hours and minutes in microseconds. -/
def offsetOf (sign : Int) (hours minutes : Nat) : Int := sign * (hours * 3600 + minutes * 60 : Nat) * DateTime.second

/-- The offset behind a time: none, a Z, or a sign with hours and, parted by a colon or not, minutes. -/
def offset? (t : Text) : Option (Option Int) :=
  match t.dropWhile isSpace with
  | [] => some none
  | 'Z' :: rest => if rest.all isSpace then some (some 0) else none
  | c :: rest =>
    if c = '+' ∨ c = '-' then
      let sign : Int := if c = '-' then -1 else 1
      match within 0 23 (field? true rest) with
      | none => none
      | some (hours, []) => some (some (offsetOf sign hours 0))
      | some (hours, d :: more) =>
        match within 0 59 (field? true (if d = ':' then more else d :: more)) with
        | some (minutes, behind) =>
          if behind.all isSpace then some (some (offsetOf sign hours minutes)) else none
        | none => none
    else none

/-- The number that at most `count` digits of a fraction spell when zeros fill them up. -/
def filledUp (count : Nat) (digits : Text) : Nat :=
  (Text.padRight '0' count digits).foldl (fun n c => 10 * n + (c.toNat - '0'.toNat)) 0

/-- The digits of a fraction, and the rest. -/
def fraction (t : Text) : Text × Rest :=
  let digits := (t.takeWhile Char.isDigit).take 18
  (digits, t.drop digits.length)

/-- A stamp from its fields, the digits of its fraction and what is left for the offset. -/
def close (d : Date) (hour minute sec : Nat) (digits : Text) (t : Rest) : Option Stamp :=
  (offset? t).map fun offset =>
    ⟨DateTime.ofFields d hour minute sec (filledUp 6 (digits.take 6)) offset, filledUp 12 (digits.drop 6),
      decide (6 < digits.length)⟩

/-- The seconds of a stamp and all behind them. -/
def fromSecond? (d : Date) (hour minute : Nat) (parted : Bool) (t : Text) : Option Stamp :=
  match within 0 59 (field? parted t) with
  | none => none
  | some (sec, '.' :: rest) => close d hour minute sec (fraction rest).1 (fraction rest).2
  | some (sec, rest) => close d hour minute sec [] rest

/-- The minutes of a stamp and all behind them. -/
def fromMinute? (d : Date) (hour : Nat) (parted : Bool) (t : Text) : Option Stamp :=
  match within 0 59 (field? parted t) with
  | none => none
  | some (minute, []) => close d hour minute 0 [] []
  | some (minute, c :: rest) =>
    if parted && c = ':' then fromSecond? d hour minute true rest
    else if !parted && c.isDigit then fromSecond? d hour minute false (c :: rest)
    else close d hour minute 0 [] (c :: rest)

/-- The hours of a stamp and all behind them; hours of one digit have minutes behind a colon. -/
def fromHour? (d : Date) (t : Text) : Option Stamp :=
  match within 0 23 (field? true t) with
  | none => none
  | some (hour, ':' :: rest) => fromMinute? d hour true rest
  | some (hour, rest) =>
    if (field? false t).isNone then none
    else
      match rest with
      | [] => close d hour 0 0 [] []
      | c :: _ => if c.isDigit then fromMinute? d hour false rest else close d hour 0 0 [] rest

/-- The stamp that a text spells. -/
def ofText? (t : Text) : Option Stamp :=
  match date? (t.dropWhile isSpace) with
  | none => none
  | some (d, []) => close d 0 0 0 [] []
  | some (d, c :: rest) => if c = 'T' ∨ c = ' ' then fromHour? d rest else none

end Stamp
end VesselTraffic
