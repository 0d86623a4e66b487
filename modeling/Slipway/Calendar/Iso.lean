import Slipway.Calendar.Basic
import Slipway.Text.Quoted
import Slipway.Text.Utf8

/-!
# `Slipway.Calendar.Iso`: ISO 8601 texts read as timestamps

The date is `yyyy-mm-dd`, `yyyymmdd` or a week date, the time `hh[:mm[:ss[.f…]]]` with or without
its colons, the offset `Z`, or a sign and a time. One character of any kind stands between date and
time. The reader works on the UTF-8 form of the text, and reads zero past its end.
-/

set_option autoImplicit false

namespace Slipway.Calendar.Iso

open Slipway.Text.Utf8 (Bytes)

/-- Why a text is no timestamp. -/
inductive Fault where
  /-- The text has not the form of a timestamp. -/
  | malformed (text : String)
  | yearRange (year : Nat)
  | monthRange
  | dayRange
  | hourRange
  | minuteRange
  | secondRange
  /-- The offset, in microseconds, is not less than a day. -/
  | offsetRange (micros : Int)
deriving DecidableEq, Repr

/-- A length of time by days, seconds and microseconds, as a message shows it. -/
def durationText (micros : Int) : String :=
  let days := Int.fdiv micros 86400000000
  let rest := (Int.fmod micros 86400000000).toNat
  let parts := (if days = 0 then [] else ["days=" ++ toString days])
    ++ (if rest / 1000000 = 0 then [] else ["seconds=" ++ toString (rest / 1000000)])
    ++ (if rest % 1000000 = 0 then [] else ["microseconds=" ++ toString (rest % 1000000)])
  "datetime.timedelta(" ++ (if parts.isEmpty then "0" else ", ".intercalate parts) ++ ")"

/-- What a message says of a fault. -/
def Fault.message : Fault → String
  | malformed s => "Invalid isoformat string: " ++ Text.Quoted.ofString s
  | yearRange y => "year " ++ toString y ++ " is out of range"
  | monthRange => "month must be in 1..12"
  | dayRange => "day is out of range for month"
  | hourRange => "hour must be in 0..23"
  | minuteRange => "minute must be in 0..59"
  | secondRange => "second must be in 0..59"
  | offsetRange o =>
    "offset must be a timedelta strictly between -timedelta(hours=24) and timedelta(hours=24), not "
      ++ durationText o ++ "."

/-- The first byte, zero at the end. -/
def head (s : Bytes) : UInt8 := s.headD 0

/-- Whether a byte is a digit. -/
def isDigit (b : UInt8) : Bool := 48 ≤ b && b ≤ 57

/-- A byte of an ASCII character. -/
def byte (c : Char) : UInt8 := c.toNat.toUInt8

/-- The number that the next `n` bytes write, and what follows them. -/
def digits? (n : Nat) (s : Bytes) : Option (Nat × Bytes) :=
  let ds := s.take n
  if ds.length = n && ds.all isDigit then
    some (Text.Digit.number 10 (ds.map fun b => b.toNat - 48), s.drop n)
  else none

/-- Where the date of a text ends, by its fifth and sixth characters. The length of the digits that
follow a week tells a week date with a day from one without. -/
def dateLength (s : Bytes) : Nat :=
  let at_ (i : Nat) := s.getD i 0
  if s.length = 7 then 7
  else if at_ 4 = byte '-' then
    if at_ 5 = byte 'W' then
      if 8 < s.length && at_ 8 == byte '-' then
        if 10 < s.length && isDigit (at_ 10) then 8 else 10
      else 8
    else 10
  else if at_ 4 = byte 'W' then
    let pos := 7 + ((s.drop 7).takeWhile isDigit).length
    if pos < 9 then pos else if pos % 2 = 0 then 7 else 8
  else 8

/-- The date of a day of an ISO week: week one holds the year's first Thursday. -/
def ofWeek? (year week day : Nat) : Option Date :=
  let first := daysBeforeYear year
  -- 0001-01-01 was a Monday
  let weekday := first % 7
  let longYear := weekday == 3 || (weekday == 2 && isLeap year)
  if year = 0 || week = 0 || 53 < week || (week == 53 && !longYear) || day = 0 || 7 < day then none
  else
    let monday : Int := (first : Int) - weekday + (if 3 < weekday then 7 else 0)
    let n := monday + (week - 1) * 7 + (day - 1)
    if n < 0 then none else some (Date.ofOrdinal n.toNat)

/-- The date that `length` bytes write, in form; it need not exist. -/
def date? (s : Bytes) (length : Nat) : Option Date :=
  match digits? 4 s with
  | none => none
  | some (year, rest) =>
    let separated := head rest == byte '-'
    let rest := if separated then rest.drop 1 else rest
    if head rest = byte 'W' then
      match digits? 2 (rest.drop 1) with
      | none => none
      | some (week, rest) =>
        if s.length - rest.length < length then
          if separated && head rest != byte '-' then none
          else match digits? 1 (if separated then rest.drop 1 else rest) with
          | none => none
          | some (day, _) => ofWeek? year week day
        else ofWeek? year week 1
    else
      match digits? 2 rest with
      | none => none
      | some (month, rest) =>
        if separated && head rest != byte '-' then none
        else match digits? 2 (if separated then rest.drop 1 else rest) with
        | none => none
        | some (day, rest) =>
          if s.length - rest.length = length then some ⟨year, month, day⟩ else none

/-- The fraction of a second that follows its point: up to six digits count, more are skipped. The
flag says that something else follows. -/
def fraction? (s : Bytes) (following : UInt8) (length : Nat) : Option (Nat × Bool) :=
  let n := min length 6
  match digits? n s with
  | none => none
  | some (v, rest) =>
    let after := (rest.dropWhile isDigit).headD following
    some (if n = 0 then 0 else v * Nat.pow 10 (6 - n), after != 0)

/-- Reads `hh[:mm[:ss[.f…]]]` from the first `s.length` bytes; `following` is the byte after them.
The flag says that a byte which belongs to no component ends the text. -/
def clock? (s : Bytes) (following : UInt8) : Option (TimeOfDay × Bool) :=
  let next (t : Bytes) : UInt8 := t.headD following
  match digits? 2 s with
  | none => none
  | some (hour, rest) =>
    let c := next rest
    let separated := c == byte ':'
    if rest.length ≤ 1 then some (⟨hour, 0, 0, 0⟩, c != 0)
    else if c == byte '.' || c == byte ',' then
      if separated then none
      else (fraction? (rest.drop 1) following (rest.length - 1)).map fun f =>
        (⟨hour, 0, 0, f.1⟩, f.2)
    else
      let rest := if separated then rest.drop 1 else rest
      match digits? 2 rest with
      | none => none
      | some (minute, rest) =>
        let c := next rest
        if rest.length ≤ 1 then some (⟨hour, minute, 0, 0⟩, c != 0)
        else if (separated && c == byte ':') || (!separated && c != byte '.' && c != byte ',') then
          let rest := if separated then rest.drop 1 else rest
          match digits? 2 rest with
          | none => none
          | some (second, rest) =>
            let c := next rest
            if rest.length ≤ 1 then some (⟨hour, minute, second, 0⟩, c != 0)
            else if c == byte '.' || c == byte ',' then
              (fraction? (rest.drop 1) following (rest.length - 1)).map fun f =>
                (⟨hour, minute, second, f.1⟩, f.2)
            else if separated && c == byte ':' then
              (fraction? (rest.drop 1) following (rest.length - 1)).map fun f =>
                (⟨hour, minute, second, f.1⟩, f.2)
            else if !separated then
              (fraction? rest following rest.length).map fun f =>
                (⟨hour, minute, second, f.1⟩, f.2)
            else none
        else if c == byte '.' || c == byte ',' then
          (fraction? (rest.drop 1) following (rest.length - 1)).map fun f =>
            (⟨hour, minute, 0, f.1⟩, f.2)
        else none

/-- Whether a byte begins an offset. -/
def beginsOffset (b : UInt8) : Bool := b == byte '+' || b == byte '-' || b == byte 'Z'

/-- Where the offset of a time begins: at the second byte at the earliest read, or at the end. -/
def offsetStart (s : Bytes) : Nat := (s.takeWhile fun b => !beginsOffset b).length

/-- The time and offset in microseconds that a text writes. -/
def timeAndOffset? (s : Bytes) : Option (TimeOfDay × Option Int) :=
  let p := offsetStart s
  let zone := s.drop p
  match clock? (s.take p) (head zone) with
  | none => none
  | some (t, extra) =>
    match zone with
    | [] => if extra then none else some (t, none)
    | sign :: rest =>
      if sign = byte 'Z' then if rest.isEmpty then some (t, some 0) else none
      else match clock? rest 0 with
      | none => none
      | some (_, true) => none
      | some (o, false) =>
        let seconds := (o.hour * 60 + o.minute) * 60 + o.second
        let micros : Int := if seconds = 0 then 0 else seconds * 1000000 + o.micro
        some (t, some (if sign = byte '-' then -micros else micros))

/-- How many bytes a character has that starts with a byte. -/
def characterLength (b : UInt8) : Nat :=
  if b < 0x80 then 1 else if b < 0xE0 then 2 else if b < 0xF0 then 3 else 4

/-- The parts of a timestamp that a text writes, in form. -/
def parts? (s : Bytes) : Option (Date × TimeOfDay × Option Int) :=
  if s.length < 7 then none else
  let n := dateLength s
  match date? s n with
  | none => none
  | some d =>
    let rest := s.drop n
    if rest.isEmpty then some (d, .midnight, none)
    else (timeAndOffset? (rest.drop (characterLength (head rest)))).map fun t => (d, t.1, t.2)

/-- A date, if it exists. Of several faults the first in the order of `Fault` counts. -/
def existing (d : Date) : Except Fault Date :=
  if d.year < 1 || 9999 < d.year then .error (.yearRange d.year)
  else if d.month < 1 || 12 < d.month then .error .monthRange
  else if d.day < 1 || daysInMonth d.year d.month < d.day then .error .dayRange
  else .ok d

/-- The timestamp of a date, a time and an offset, if they exist. Of several faults the first in the
order of `Fault` counts, except that an offset of a day or more comes before all others. -/
def timestamp (d : Date) (t : TimeOfDay) (offset : Option Int) : Except Fault Timestamp :=
  if 86400000000 ≤ (offset.getD 0).natAbs then .error (.offsetRange (offset.getD 0))
  else match existing d with
  | .error e => .error e
  | .ok d =>
    if 23 < t.hour then .error .hourRange
    else if 59 < t.minute then .error .minuteRange
    else if 59 < t.second then .error .secondRange
    else .ok ⟨d, t, offset⟩

/-- The timestamp that a text writes. -/
def parse (text : String) : Except Fault Timestamp :=
  match parts? (Text.Utf8.ofString text) with
  | none => .error (.malformed text)
  | some (d, t, offset) => timestamp d t offset

end Slipway.Calendar.Iso
