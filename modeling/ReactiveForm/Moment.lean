/-!
# Moments

Local dates and times with their distance from universal time, as a clock shows them.
-/

set_option autoImplicit false

namespace ReactiveForm

structure Moment where
  year : Nat
  month : Nat
  day : Nat
  hour : Nat
  minute : Nat
  second : Nat
  millisecond : Nat
  /-- Minutes ahead of universal time. -/
  offset : Int
  deriving Repr, DecidableEq

namespace Moment

/-- The first moment of 1970 in universal time. -/
def epoch : Moment := ⟨1970, 1, 1, 0, 0, 0, 0, 0⟩

/-- Year, month and day of a day counted from the first of January 1970. Years are counted from
March on, so that the leap day is the last of its year, in cycles of four centuries. -/
def calendarDate (day : Nat) : Nat × Nat × Nat :=
  let z := day + 719468
  let inCycle := z % 146097
  let yearInCycle := (inCycle - inCycle / 1460 + inCycle / 36524 - inCycle / 146096) / 365
  let inYear := inCycle - (365 * yearInCycle + yearInCycle / 4 - yearInCycle / 100)
  let month := (5 * inYear + 2) / 153
  let year := z / 146097 * 400 + yearInCycle
  let date := inYear - (153 * month + 2) / 5 + 1
  if month < 10 then (year, month + 3, date) else (year + 1, month - 9, date)

/-- The moment so many milliseconds after the first moment of 1970, in universal time. -/
def ofUnix (milliseconds : Nat) : Moment :=
  let seconds := milliseconds / 1000
  let (year, month, day) := calendarDate (seconds / 86400)
  { year, month, day, hour := seconds / 3600 % 24, minute := seconds / 60 % 60
    second := seconds % 60, millisecond := milliseconds % 1000, offset := 0 }

/-- A number with zeros in front up to `width` digits. -/
def padded (width n : Nat) : String :=
  let digits := Nat.toDigits 10 n
  String.ofList (List.replicate (width - digits.length) '0' ++ digits)

/-- The date alone, such as `2024-03-05`. -/
def dateText (m : Moment) : String :=
  padded 4 m.year ++ "-" ++ padded 2 m.month ++ "-" ++ padded 2 m.day

def offsetText (m : Moment) : String :=
  let sign := if m.offset < 0 then "-" else "+"
  let minutes := m.offset.natAbs
  sign ++ padded 2 (minutes / 60) ++ ":" ++ padded 2 (minutes % 60)

/-- Date, time with milliseconds and offset, such as `2024-03-05T10:20:30.000+01:00`. -/
def text (m : Moment) : String :=
  m.dateText ++ "T" ++ padded 2 m.hour ++ ":" ++ padded 2 m.minute ++ ":" ++ padded 2 m.second
    ++ "." ++ padded 3 m.millisecond ++ m.offsetText

end Moment

end ReactiveForm
