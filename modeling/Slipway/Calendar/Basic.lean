import Slipway.Text.Digit

/-!
# `Slipway.Calendar.Basic`: dates, times of day, offsets

Dates of the proleptic Gregorian calendar from year 1 to 9999. Days are counted from 1970-01-01, and
instants in microseconds from its midnight in UTC.
-/

set_option autoImplicit false

namespace Slipway.Calendar

/-- Whether a year has a 29th of February. -/
def isLeap (year : Nat) : Bool :=
  year % 4 == 0 && (year % 100 != 0 || year % 400 == 0)

/-- How many days a month has; none outside the twelve. -/
def daysInMonth (year month : Nat) : Nat :=
  match month with
  | 1 | 3 | 5 | 7 | 8 | 10 | 12 => 31
  | 4 | 6 | 9 | 11 => 30
  | 2 => if isLeap year then 29 else 28
  | _ => 0

/-- How many days of a year lie before a month. -/
def daysBeforeMonth (year month : Nat) : Nat :=
  (List.range (month - 1)).foldl (fun n i => n + daysInMonth year (i + 1)) 0

/-- How many days lie between 0001-01-01 and the first day of a year. -/
def daysBeforeYear (year : Nat) : Nat :=
  let y := year - 1
  y * 365 + y / 4 - y / 100 + y / 400

/-- The day number of 1970-01-01, with 0001-01-01 as day zero. -/
def epochDay : Nat := 719162

/-- A date. -/
structure Date where
  year : Nat
  month : Nat
  day : Nat
deriving DecidableEq, Repr

namespace Date

/-- Whether the date exists. -/
def isValid (d : Date) : Bool :=
  1 ≤ d.year && d.year ≤ 9999 && 1 ≤ d.month && d.month ≤ 12 &&
    1 ≤ d.day && d.day ≤ daysInMonth d.year d.month

/-- The days from 0001-01-01 to a date. -/
def ordinal (d : Date) : Nat :=
  daysBeforeYear d.year + daysBeforeMonth d.year d.month + (d.day - 1)

/-- The days from 1970-01-01 to a date. -/
def dayNumber (d : Date) : Int := (d.ordinal : Int) - epochDay

/-- The month that the day with a number in its year lies in, and the day's number in the month. -/
def monthOf (year : Nat) : List Nat → Nat → Nat × Nat
  | [], rest => (12, rest)
  | m :: ms, rest =>
    if rest < daysInMonth year m then (m, rest) else monthOf year ms (rest - daysInMonth year m)

/-- The date that lies some days after 0001-01-01. -/
def ofOrdinal (n : Nat) : Date :=
  let guess := n / 366 + 1
  let year := ((List.range (n / 146097 * 2 + 4)).map (guess + ·)).foldl
    (fun y c => if daysBeforeYear c ≤ n then c else y) guess
  let m := monthOf year (List.range' 1 12) (n - daysBeforeYear year)
  ⟨year, m.1, m.2 + 1⟩

/-- The date as `yyyy-mm-dd`. -/
def text (d : Date) : String :=
  Text.Digit.atLeast 4 d.year ++ "-" ++ Text.Digit.atLeast 2 d.month ++ "-"
    ++ Text.Digit.atLeast 2 d.day

end Date

/-- A time of day, to the microsecond. -/
structure TimeOfDay where
  hour : Nat
  minute : Nat
  second : Nat
  micro : Nat
deriving DecidableEq, Repr

namespace TimeOfDay

/-- Whether the time exists on a clock without leap seconds. -/
def isValid (t : TimeOfDay) : Bool :=
  t.hour < 24 && t.minute < 60 && t.second < 60 && t.micro < 1000000

/-- The microseconds since midnight. -/
def micros (t : TimeOfDay) : Nat :=
  ((t.hour * 60 + t.minute) * 60 + t.second) * 1000000 + t.micro

/-- The time that lies some microseconds after midnight, within one day. -/
def ofMicros (n : Nat) : TimeOfDay :=
  ⟨n / 3600000000 % 24, n / 60000000 % 60, n / 1000000 % 60, n % 1000000⟩

/-- Midnight. -/
def midnight : TimeOfDay := ⟨0, 0, 0, 0⟩

/-- The time as `hh:mm:ss`, with six more digits if it has a fraction of a second. -/
def text (t : TimeOfDay) : String :=
  Text.Digit.atLeast 2 t.hour ++ ":" ++ Text.Digit.atLeast 2 t.minute ++ ":"
    ++ Text.Digit.atLeast 2 t.second
    ++ (if t.micro = 0 then "" else "." ++ Text.Digit.atLeast 6 t.micro)

end TimeOfDay

/-- A date and time of day, with the offset of its clock from UTC in microseconds if it is known. -/
structure Timestamp where
  date : Date
  time : TimeOfDay
  offset : Option Int
deriving DecidableEq, Repr

namespace Timestamp

/-- An offset as `+hh:mm`, with seconds and microseconds if it has any. -/
def offsetText (micros : Int) : String :=
  let n := micros.natAbs
  let seconds := n / 1000000
  let fine :=
    if n % 60000000 = 0 then ""
    else ":" ++ Text.Digit.atLeast 2 (seconds % 60)
      ++ (if n % 1000000 = 0 then "" else "." ++ Text.Digit.atLeast 6 (n % 1000000))
  (if micros < 0 then "-" else "+") ++ Text.Digit.atLeast 2 (seconds / 3600) ++ ":"
    ++ Text.Digit.atLeast 2 (seconds / 60 % 60) ++ fine

/-- The timestamp in ISO 8601. -/
def text (t : Timestamp) : String :=
  t.date.text ++ "T" ++ t.time.text ++ (match t.offset with
    | none => ""
    | some o => offsetText o)

/-- The microseconds from 1970-01-01T00:00:00 UTC to the instant. A clock without an offset is taken
to show UTC. -/
def instant (t : Timestamp) : Int :=
  t.date.dayNumber * 86400000000 + t.time.micros - t.offset.getD 0

/-- The instant some microseconds after 1970-01-01T00:00:00 UTC, on a clock that shows UTC. -/
def ofInstant (micros : Int) : Timestamp :=
  let days := Int.fdiv micros 86400000000
  let rest := (Int.fmod micros 86400000000).toNat
  ⟨Date.ofOrdinal (days + epochDay).toNat, TimeOfDay.ofMicros rest, some 0⟩

end Timestamp
end Slipway.Calendar
