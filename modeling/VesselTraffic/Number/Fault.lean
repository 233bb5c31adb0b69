import VesselTraffic.Fault.Category
import VesselTraffic.Text.Quoted

/-!
# Faults of numbers

A text may not spell a number, an integer may have too many digits to be read or written, a double may have no integer beside it, and an
integer or a quotient of integers may lie beyond the doubles. Only the last two kinds and the infinite double are out of range.
Interpolation and angles take integers of 64 binary digits and refuse wider ones as a wrong type of number. A double has no
quotient by zero.

An integer is written with at most as many decimal digits as it may be read from, a minus sign not counted. One with more of them is at
fault wherever its digits are asked for: in a tag, in the entry for a new target, in the wording of a fault, in a shown value. In other
bases there is no limit.
-/

namespace VesselTraffic

/-- Why a number could not be read, written or converted. -/
inductive NumberFault where
  | invalidInteger (spelling : Text)
  | tooManyDigits (count : Nat)
  | tooLongToWrite
  | invalidDecimal (spelling : Text)
  | nanToInteger
  | infinityToInteger
  | integerTooLarge
  | quotientTooLarge
  | tooWideToInterpolate
  | tooWideForAngle
  | divisionByZero
deriving DecidableEq, Repr

namespace NumberFault

/-- The category of a number fault. -/
def category : NumberFault → Category
  | invalidInteger _ | tooManyDigits _ | tooLongToWrite | invalidDecimal _ | nanToInteger => .badValue
  | infinityToInteger | integerTooLarge | quotientTooLarge => .outOfRange
  | tooWideToInterpolate | tooWideForAngle => .badType
  | divisionByZero => .zeroDivision

/-- The most characters, quotes and escapes included, by which a text that spells no integer is shown. -/
def shownLimit : Nat := 200

/-- The wording of a number fault. -/
def message : NumberFault → Text
  | invalidInteger s => "invalid literal for int() with base 10: ".toList ++ s.quoted.take shownLimit
  | tooManyDigits n =>
    "Exceeds the limit (4300 digits) for integer string conversion: value has ".toList ++ Text.ofNat n ++
      " digits; use sys.set_int_max_str_digits() to increase the limit".toList
  | tooLongToWrite =>
    "Exceeds the limit (4300 digits) for integer string conversion; ".toList ++
      "use sys.set_int_max_str_digits() to increase the limit".toList
  | invalidDecimal s => "could not convert string to float: ".toList ++ s.quoted
  | nanToInteger => "cannot convert float NaN to integer".toList
  | infinityToInteger => "cannot convert float infinity to integer".toList
  | integerTooLarge => "int too large to convert to float".toList
  | quotientTooLarge => "integer division result too large for a float".toList
  | tooWideToInterpolate =>
    "Cannot cast array data from dtype('O') to dtype('float64') according to the rule 'safe'".toList
  | tooWideForAngle =>
    "loop of ufunc does not support argument 0 of type int which has no callable radians method".toList
  | divisionByZero => "float division by zero".toList

end NumberFault

namespace Number

/-- The most decimal digits that an integer may be read from or written with. -/
def digitLimit : Nat := 4300

/-- An integer in decimal digits, if there are not too many of them. -/
def writeInteger (n : Int) : Except NumberFault Text :=
  if digitLimit < (Text.ofNat n.natAbs).length then .error .tooLongToWrite else .ok (Text.ofInt n)

end Number
end VesselTraffic
