import SqlFragments.Text.Pieces

/-!
# Dates and timestamps

Days of the Gregorian calendar, extended to all years, the year zero included, and moments without a
zone. `Date.dayNumber` counts days from 1 January 2000 and `Timestamp.sinceEpoch` counts nanoseconds
from that day's midnight; both are how a column stores them. A leap second is the second 59 with a
thousand million nanoseconds or more.
-/

namespace SqlFragments

/-- A day of the calendar. -/
structure Date where
  year : Int
  month : Nat
  day : Nat
  deriving DecidableEq, Repr

/-- A moment without a zone. -/
structure Timestamp where
  date : Date
  hour : Nat
  minute : Nat
  second : Nat
  nanos : Nat
  deriving DecidableEq, Repr

namespace Date

/-- Whether the year has a 29 February. -/
def isLeap (year : Int) : Bool :=
  Int.emod year 4 == 0 && (Int.emod year 100 != 0 || Int.emod year 400 == 0)

/-- The days of the year before the month, in a year that is not a leap year. -/
def daysBeforeMonth : Nat → Nat
  | 1 => 0 | 2 => 31 | 3 => 59 | 4 => 90 | 5 => 120 | 6 => 151
  | 7 => 181 | 8 => 212 | 9 => 243 | 10 => 273 | 11 => 304 | _ => 334

/-- The days of all years before this one, counted from 1 January of the year one. -/
def daysBeforeYear (year : Int) : Int :=
  let y := year - 1
  365 * y + Int.fdiv y 4 - Int.fdiv y 100 + Int.fdiv y 400

/-- The days from 1 January 2000; days before it are negative. -/
def dayNumber (d : Date) : Int :=
  let leapDay := if d.month > 2 && isLeap d.year then 1 else 0
  daysBeforeYear d.year - daysBeforeYear 2000 + daysBeforeMonth d.month + leapDay + (d.day - 1)

/-- A year in four digits; outside 0 to 9999 with its sign and at least four digits. -/
def yearText (year : Int) : String :=
  let digits := Text.zeroPadded 4 year.natAbs
  if 0 ≤ year ∧ year ≤ 9999 then digits
  else (if year < 0 then "-" else "+") ++ digits

/-- `YYYY-MM-DD`. -/
def text (d : Date) : String :=
  yearText d.year ++ "-" ++ Text.zeroPadded 2 d.month ++ "-" ++ Text.zeroPadded 2 d.day

end Date

namespace Timestamp

/-- The fraction of a second in three, six or nine digits, as few as show it all. -/
def fractionText (nanos : Nat) : String :=
  if nanos = 0 then ""
  else if nanos % 1000000 = 0 then "." ++ Text.zeroPadded 3 (nanos / 1000000)
  else if nanos % 1000 = 0 then "." ++ Text.zeroPadded 6 (nanos / 1000)
  else "." ++ Text.zeroPadded 9 nanos

/-- `HH:MM:SS` and the fraction; a leap second is the second 60. -/
def clockText (t : Timestamp) : String :=
  let second := t.second + t.nanos / 1000000000
  Text.zeroPadded 2 t.hour ++ ":" ++ Text.zeroPadded 2 t.minute ++ ":" ++
    Text.zeroPadded 2 second ++ fractionText (t.nanos % 1000000000)

/-- The date and the clock, with `mark` between them. -/
def text (mark : String) (t : Timestamp) : String :=
  t.date.text ++ mark ++ t.clockText

/-- The nanoseconds from the midnight that began 2000. -/
def sinceEpoch (t : Timestamp) : Int :=
  let seconds : Int := t.date.dayNumber * 86400 + t.hour * 3600 + t.minute * 60 + t.second
  seconds * 1000000000 + t.nanos

end Timestamp

end SqlFragments
