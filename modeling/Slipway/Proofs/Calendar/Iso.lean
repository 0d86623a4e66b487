import Slipway.Calendar.Iso
import Slipway.Proofs.Calendar.Order
import Slipway.Proofs.Text.Digit

/-!
# `Slipway.Proofs.Calendar.Iso`: what the reader makes of a timestamp in full

A timestamp in full (`Full`) has a date, a time to the second, a fraction or none, and a zone.
`parse_text` states that the text of one that exists is read as what it says, if its fraction goes
no further than the microseconds.

The reader is followed from part to part, each with the bytes that come after it left open: a number
(`digits?_padded`), the date (`dateLength_dateChars`, `date?_dateChars`), the time with its fraction
(`clock?_time`), the offset (`timeAndOffset?_zone`). No byte of a time begins an offset, which is
how the reader tells where the time ends. -/

set_option autoImplicit false

namespace Slipway.Calendar.Iso

open Slipway.Text.Digit (padded hexDigit)
open Slipway.Text.Utf8 (Bytes)

/-! ### Timestamps in full -/

/-- A fraction of a second, by the number of its digits and the number that they write. -/
structure Fraction where
  places : Nat
  value : Nat

/-- The clock of a timestamp: that of UTC, or one that is some hours and minutes ahead or behind. -/
inductive Zone where
  | utc
  | shifted (behind : Bool) (hours minutes : Nat)

/-- A timestamp in full. The point is left out with the fraction. -/
structure Full where
  date : Date
  hour : Nat
  minute : Nat
  second : Nat
  fraction : Option Fraction
  zone : Zone

namespace Fraction

/-- The fraction in nanoseconds, of which it has nine digits at most. -/
def nanos (f : Fraction) : Nat := f.value * 10 ^ (9 - f.places)

/-- The digits after their point. -/
def chars (f : Fraction) : List Char := '.' :: padded 10 f.places f.value

/-- Whether a fraction has no more than some digits, and a value that these can write. -/
def IsWithin (most : Nat) (f : Fraction) : Prop := f.places ≤ most ∧ f.value < 10 ^ f.places

end Fraction

namespace Zone

/-- The offset of a zone in microseconds. -/
def micros : Zone → Int
  | utc => 0
  | shifted behind hours minutes =>
    (if behind then -1 else 1) * ((hours * 60 + minutes : Nat) : Int) * 60000000

/-- The text of a zone: `Z`, or the offset with its sign. -/
def chars : Zone → List Char
  | utc => ['Z']
  | shifted behind hours minutes =>
    (if behind then '-' else '+') :: (padded 10 2 hours ++ ':' :: padded 10 2 minutes)

/-- Whether a zone is less than a day ahead or behind. -/
def IsValid : Zone → Prop
  | utc => True
  | shifted _ hours minutes => hours < 24 ∧ minutes < 60

end Zone

/-- The text of a date, as `yyyy-mm-dd`. -/
def dateChars (d : Date) : List Char :=
  padded 10 4 d.year ++ '-' :: (padded 10 2 d.month ++ '-' :: padded 10 2 d.day)

@[simp] theorem length_dateChars (d : Date) : (dateChars d).length = 10 := by simp [dateChars]

/-- The text of a time of day to the second, as `hh:mm:ss`. -/
def timeChars (hour minute second : Nat) : List Char :=
  padded 10 2 hour ++ ':' :: (padded 10 2 minute ++ ':' :: padded 10 2 second)

/-- The nanoseconds of a fraction that may be left out. -/
def nanosOf (fraction : Option Fraction) : Nat := (fraction.map Fraction.nanos).getD 0

/-- The text of a fraction that may be left out. -/
def fractionChars (fraction : Option Fraction) : List Char := (fraction.map Fraction.chars).getD []

namespace Full

variable (x : Full)

/-- Whether the date and the time exist and the fraction has no more than some digits. -/
structure IsValid (most : Nat) : Prop where
  date : x.date.isValid = true
  hour : x.hour < 24
  minute : x.minute < 60
  second : x.second < 60
  fraction : ∀ f ∈ x.fraction, f.IsWithin most
  zone : x.zone.IsValid

/-- The text of a timestamp, character by character. -/
def chars : List Char :=
  dateChars x.date ++
    'T' :: (timeChars x.hour x.minute x.second ++ (fractionChars x.fraction ++ x.zone.chars))

/-- The text of a timestamp. -/
def text : String := String.ofList x.chars

/-- The nanoseconds of a timestamp since its second. -/
def nanos : Nat := nanosOf x.fraction

/-- The nanoseconds from 1970-01-01T00:00:00 UTC to the instant. -/
def instant : Int :=
  x.date.dayNumber * 86400000000000
    + (((x.hour * 60 + x.minute) * 60 + x.second) * 1000000000 + x.nanos :
      Nat) - x.zone.micros * 1000

/-- The timestamp with the digits after its microseconds cut off. -/
def truncated : Timestamp :=
  ⟨x.date, ⟨x.hour, x.minute, x.second, x.nanos / 1000⟩, some x.zone.micros⟩

end Full

section
variable {p : Char → Prop}

/-- What holds of digits and of the hyphen holds of all characters of a date. -/
theorem forall_mem_dateChars (d : Date) (hdigit : ∀ v < 10, p (hexDigit v)) (hyphen : p '-') :
    ∀ c ∈ dateChars d, p c := by
  have hpadded {width n : Nat} : ∀ c ∈ padded 10 width n, p c := Text.Digit.forall_mem_padded hdigit
  simp only [dateChars, List.forall_mem_append, List.forall_mem_cons]
  exact ⟨hpadded, hyphen, hpadded, hyphen, hpadded⟩

/-- What holds of digits and of the colon holds of all characters of a time. -/
theorem forall_mem_timeChars (hour minute second : Nat) (hdigit : ∀ v < 10, p (hexDigit v))
    (hcolon : p ':') :
    ∀ c ∈ timeChars hour minute second, p c := by
  have hpadded {width n : Nat} : ∀ c ∈ padded 10 width n, p c := Text.Digit.forall_mem_padded hdigit
  simp only [timeChars, List.forall_mem_append, List.forall_mem_cons]
  exact ⟨hpadded, hcolon, hpadded, hcolon, hpadded⟩

/-- What holds of digits and of the point holds of all characters of a fraction. -/
theorem forall_mem_fractionChars (fraction : Option Fraction) (hdigit : ∀ v < 10, p (hexDigit v))
    (hpoint : p '.') :
    ∀ c ∈ fractionChars fraction, p c := by
  cases fraction with
  | none => exact List.forall_mem_nil _
  | some f => exact List.forall_mem_cons.mpr ⟨hpoint, Text.Digit.forall_mem_padded hdigit⟩

/-- What holds of digits, signs and the colon holds of all characters of an offset. -/
theorem forall_mem_offsetChars (behind : Bool) (hours minutes : Nat)
    (hdigit : ∀ v < 10, p (hexDigit v))
    (hplus : p '+') (hminus : p '-') (hcolon : p ':') :
    ∀ c ∈ (Zone.shifted behind hours minutes).chars, p c := by
  have hpadded {width n : Nat} : ∀ c ∈ padded 10 width n, p c := Text.Digit.forall_mem_padded hdigit
  simp only [Zone.chars, List.forall_mem_append, List.forall_mem_cons]
  exact ⟨by cases behind <;> assumption, hpadded, hcolon, hpadded⟩

end

/-! ### Numbers -/

section
variable {width n : Nat}

/-- A padded number is written in digits. -/
theorem isDigit_of_mem_padded : ∀ b ∈ (padded 10 width n).map byte, isDigit b = true := by
  intro b hb
  obtain ⟨c, hc, rfl⟩ := List.mem_map.mp hb
  exact Text.Digit.forall_mem_padded (p := fun c => isDigit (byte c) = true) (by decide) c hc

/-- A number is read from the digits that write it, whatever follows. -/
theorem digits?_padded (h : n < 10 ^ width) (rest : Bytes) :
    digits? width ((padded 10 width n).map byte ++ rest) = some (n, rest) := by
  have hvalue : ((padded 10 width n).map byte).map (fun b => b.toNat - 48)
      = (padded 10 width n).map Text.Digit.asciiValue := by
    rw [List.map_map]
    exact List.map_congr_left (Text.Digit.forall_mem_padded (by decide))
  have htake : ((padded 10 width n).map byte ++ rest).take width = (padded 10 width n).map byte :=
    List.take_left' (by simp)
  have hdrop : ((padded 10 width n).map byte ++ rest).drop width = rest := List.drop_left' (by simp)
  have hlength : ((padded 10 width n).map byte).length = width := by simp
  have hall : ((padded 10 width n).map byte).all isDigit = true :=
    List.all_eq_true.mpr isDigit_of_mem_padded
  -- All digits that are asked for are there, and their value is the number.
  simp only [digits?, htake, hdrop, hlength, hall, hvalue, Text.Digit.number_padded h, decide_true,
    Bool.and_self, if_true]

/-- Two digits are read as the number that they were written for. -/
theorem digits?_two (h : n < 100) (rest : Bytes) :
    digits? 2 ((padded 10 2 n).map byte ++ rest) = some (n, rest) :=
  digits?_padded h rest

/-- The fraction is read in microseconds. -/
theorem fraction?_padded {places : Nat} (h : n < 10 ^ places) (hplaces : places ≤ 6)
    (following : UInt8) :
    fraction? ((padded 10 places n).map byte) following places
      = some (n * 10 ^ (6 - places), following != 0) := by
  have hread := digits?_padded h []
  rw [List.append_nil] at hread
  -- no digits are read as zero apart, which is also what they write
  simp only [fraction?, Nat.min_eq_left hplaces, hread, List.dropWhile_nil, List.headD_nil]
  split
  · next hzero =>
    obtain rfl : n = 0 := by simpa [hzero] using h
    simp
  · rfl

/-- A written number begins with a digit, so it begins no week. -/
theorem head_padded_ne (rest : Bytes) : head ((padded 10 2 n).map byte ++ rest) ≠ byte 'W' := by
  intro hweek
  obtain ⟨b, more, hb⟩ : ∃ b more, (padded 10 2 n).map byte = b :: more :=
    List.exists_cons_of_length_eq_add_one (n := 1) (by simp)
  have hdigit : isDigit b = true := isDigit_of_mem_padded b (hb ▸ List.mem_cons_self ..)
  rw [hb] at hweek
  rw [show b = byte 'W' from hweek] at hdigit
  exact absurd hdigit (by decide)

end

/-! ### Times of day -/

section
variable {hour minute second : Nat}

/-- A colon is neither of the signs before a fraction. -/
theorem colon_not_point :
    (byte ':' == byte '.') = false ∧ (byte ':' == byte ',') = false := by decide

/-- Up to the seconds a time is read alike, whatever its fraction. -/
theorem clock?_seconds (hhour : hour < 100) (hminute : minute < 100) (hsecond : second < 100)
    (following : UInt8) (rest : Bytes) :
    clock? ((timeChars hour minute second).map byte ++ rest) following =
      if rest.length ≤ 1 then some (⟨hour, minute, second, 0⟩, rest.headD following != 0)
      else if rest.headD following == byte '.' || rest.headD following == byte ',' then
        (fraction? (rest.drop 1) following (rest.length - 1)).map fun f =>
          (⟨hour, minute, second, f.1⟩, f.2)
      else if rest.headD following == byte ':' then
        (fraction? (rest.drop 1) following (rest.length - 1)).map fun f =>
          (⟨hour, minute, second, f.1⟩, f.2)
      else none := by
  simp [clock?, timeChars, digits?_two hhour, digits?_two hminute, digits?_two hsecond,
    colon_not_point]

/-- A fraction of up to six digits writes a whole number of microseconds. -/
theorem Fraction.nanos_div {f : Fraction} (h : f.places ≤ 6) :
    f.nanos / 1000 = f.value * 10 ^ (6 - f.places) := by
  rw [nanos, show 9 - f.places = (6 - f.places) + 3 by omega, Nat.pow_add, ← Nat.mul_assoc,
    Nat.mul_div_cancel _ (by decide)]

/-- A time is read to the microsecond, if its fraction goes no further. -/
theorem clock?_time (hhour : hour < 100) (hminute : minute < 100) (hsecond : second < 100)
    {fraction : Option Fraction} (hfraction : ∀ f ∈ fraction, f.IsWithin 6)
    {following : UInt8} (hfollowing : following ≠ 0) :
    clock? ((timeChars hour minute second ++ fractionChars fraction).map byte) following
      = some (⟨hour, minute, second, nanosOf fraction / 1000⟩, true) := by
  rw [List.map_append, clock?_seconds hhour hminute hsecond]
  cases fraction with
  | none => simp [fractionChars, nanosOf, hfollowing]
  | some f =>
    obtain ⟨hplaces, hvalue⟩ := hfraction f rfl
    by_cases hnone : f.places = 0
    · -- a point that no digit follows is the last byte, not the beginning of a fraction
      have hzero : f.value = 0 := by simpa [hnone] using hvalue
      have hpoint : byte '.' ≠ 0 := by decide
      simp [fractionChars, Fraction.chars, nanosOf, Fraction.nanos, hnone, hzero, padded, hpoint]
    · simp [fractionChars, Fraction.chars, nanosOf, hnone, fraction?_padded hvalue hplaces,
        hfollowing,
        Fraction.nanos_div hplaces]

/-- The hours and minutes of an offset are read as a time of day. -/
theorem clock?_offset (hhour : hour < 100) (hminute : minute < 100) :
    clock? ((padded 10 2 hour ++ ':' :: padded 10 2 minute).map byte) 0 =
      some (⟨hour, minute, 0, 0⟩, false) := by
  have hend := digits?_two hminute []
  rw [List.append_nil] at hend
  simp [clock?, digits?_two hhour, hend, colon_not_point]

/-- No byte of a time begins an offset. -/
theorem not_beginsOffset_time (fraction : Option Fraction) :
    ∀ b ∈ (timeChars hour minute second ++ fractionChars fraction).map byte,
      (!beginsOffset b) = true := by
  simp only [List.forall_mem_map, List.forall_mem_append]
  exact ⟨forall_mem_timeChars _ _ _ (by decide) (by decide),
    forall_mem_fractionChars _ (by decide) (by decide)⟩

/-- The offset begins at the first byte that can begin one. -/
theorem offsetStart_append {time rest : Bytes} {sign : UInt8}
    (htime : ∀ b ∈ time, (!beginsOffset b) = true)
    (hsign : beginsOffset sign = true) : offsetStart (time ++ sign :: rest) = time.length := by
  rw [offsetStart, List.takeWhile_append_of_pos htime, List.takeWhile_cons_of_neg (by simp [hsign]),
    List.append_nil]

/-- A clock that shows UTC is one without an offset. -/
theorem timeAndOffset?_utc {time : Bytes} {t : TimeOfDay}
    (htime : ∀ b ∈ time, (!beginsOffset b) = true)
    (hclock : clock? time (byte 'Z') = some (t, true)) :
    timeAndOffset? (time ++ [byte 'Z']) = some (t, some 0) := by
  have hhead : head [byte 'Z'] = byte 'Z' := rfl
  simp only [timeAndOffset?, offsetStart_append htime (by decide : beginsOffset (byte 'Z') = true),
    List.take_left,
    List.drop_left, hhead, hclock, if_true, List.isEmpty_nil]

/-- A time and an offset are read apart, each by itself. -/
theorem timeAndOffset?_shifted {time rest : Bytes} {sign : UInt8} {t : TimeOfDay}
    {hours minutes : Nat}
    (htime : ∀ b ∈ time, (!beginsOffset b) = true) (hsign : beginsOffset sign = true)
    (hutc : sign ≠ byte 'Z')
    (hclock : clock? time sign = some (t, true))
    (hrest : clock? rest 0 = some (⟨hours, minutes, 0, 0⟩, false)) :
    timeAndOffset? (time ++ sign :: rest) = some (t, some
      ((if sign = byte '-' then -1 else 1) * ((hours * 60 + minutes : Nat) : Int) * 60000000)) := by
  have hhead : head (sign :: rest) = sign := rfl
  -- An offset of no time at all is zero, and the minutes count in any other.
  have hmicros : (if (hours * 60 + minutes) * 60 + 0 = 0 then 0
      else (((hours * 60 + minutes) * 60 + 0 : Nat) : Int) * 1000000 + ((0 : Nat) : Int))
        = ((hours * 60 + minutes : Nat) : Int) * 60000000 := by
    split <;> omega
  simp only [timeAndOffset?, offsetStart_append htime hsign, List.take_left, List.drop_left, hhead,
    hclock, hutc,
    hrest, hmicros, if_false]
  by_cases hbehind : sign = byte '-'
  · simp only [hbehind, if_true, Int.neg_mul, Int.one_mul]
  · simp only [hbehind, if_false, Int.one_mul]

/-- The offset of a zone is read from its text. -/
theorem timeAndOffset?_zone {time : Bytes} {t : TimeOfDay} {zone : Zone} (hzone : zone.IsValid)
    (htime : ∀ b ∈ time, (!beginsOffset b) = true)
    (hclock : ∀ following ≠ 0, clock? time following = some (t, true)) :
    timeAndOffset? (time ++ zone.chars.map byte) = some (t, some zone.micros) := by
  cases zone with
  | utc => exact timeAndOffset?_utc htime (hclock (byte 'Z') (by decide))
  | shifted behind hours minutes =>
    obtain ⟨hhours, hminutes⟩ := hzone
    have hread := clock?_offset (show hours < 100 by omega) (show minutes < 100 by omega)
    cases behind with
    | false =>
      exact timeAndOffset?_shifted htime (by decide) (by decide) (hclock (byte '+') (by decide))
        hread
    | true =>
      exact timeAndOffset?_shifted htime (by decide) (by decide) (hclock (byte '-') (by decide))
        hread

end

/-! ### Dates and timestamps -/

section
variable {d : Date} {x : Full}

/-- A date in bytes is its year, month and day with hyphens between them. -/
theorem map_dateChars_append (d : Date) (rest : Bytes) :
    (dateChars d).map byte ++ rest = (padded 10 4 d.year).map byte ++ byte '-' ::
      ((padded 10 2 d.month).map byte ++ byte '-' :: ((padded 10 2 d.day).map byte ++ rest)) := by
  simp only [dateChars, List.map_append, List.map_cons, List.append_assoc, List.cons_append]

/-- The hyphen after the year and the digit after it tell a date from a week date. -/
theorem dateLength_dateChars (d : Date) (rest : Bytes) :
    dateLength ((dateChars d).map byte ++ rest) = 10 := by
  have hlength : ((dateChars d).map byte ++ rest).length ≠ 7 := by
    rw [List.length_append, List.length_map, length_dateChars]
    omega
  have hyphen : ((dateChars d).map byte ++ rest).getD 4 0 = byte '-' := by
    rw [map_dateChars_append]
    simp
  have hmonth : ((dateChars d).map byte ++ rest).getD 5 0 ≠ byte 'W' := by
    have hweek := head_padded_ne (n := d.month) (byte '-' :: ((padded 10 2 d.day).map byte ++ rest))
    rw [map_dateChars_append]
    -- only the first byte of the month is looked at
    cases hmore : (padded 10 2 d.month).map byte ++
      byte '-' :: ((padded 10 2 d.day).map byte ++ rest) with
    | nil => simp at hmore
    | cons b more => simpa [hmore, head, List.getElem?_append_right] using hweek
  simp only [dateLength, hlength, hyphen, hmonth, if_true, if_false]

/-- A date is read from its text, whatever follows. -/
theorem date?_dateChars (h : d.isValid = true) (rest : Bytes) :
    date? ((dateChars d).map byte ++ rest) 10 = some d := by
  simp only [Date.isValid, Bool.and_eq_true, decide_eq_true_eq] at h
  obtain ⟨⟨⟨⟨⟨-, hyear⟩, -⟩, hmonth⟩, -⟩, hday⟩ := h
  have hdays : d.day < 100 := Nat.lt_of_le_of_lt (Nat.le_trans hday (daysInMonth_le ..)) (by decide)
  have hweek := head_padded_ne (n := d.month) (byte '-' :: ((padded 10 2 d.day).map byte ++ rest))
  have hyphen (more : Bytes) : head (byte '-' :: more) = byte '-' := rfl
  have hlength : ((dateChars d).map byte ++ rest).length - rest.length = 10 := by
    rw [List.length_append, List.length_map, length_dateChars, Nat.add_sub_cancel]
  rw [map_dateChars_append] at hlength ⊢
  simpa [date?, digits?_padded (show d.year < 10 ^ 4 by omega), hyphen, hweek,
    digits?_two (show d.month < 100 by omega), digits?_two hdays] using hlength

/-- A character of ASCII is written in one byte. -/
theorem encode_of_ascii {s : List Char} (h : ∀ c ∈ s, c.toNat < 0x80) :
    Text.Utf8.encode s = s.map byte := by
  induction s with
  | nil => rfl
  | cons c s ih =>
    obtain ⟨hc, hs⟩ := List.forall_mem_cons.mp h
    rw [List.map_cons, ← ih hs, Text.Utf8.encode, List.flatMap_cons, Text.Utf8.encodeChar,
      if_pos hc]
    rfl

/-- A timestamp in full is ASCII, so its bytes are its characters. -/
theorem ofString_text (x : Full) : Text.Utf8.ofString x.text = x.chars.map byte := by
  rw [Text.Utf8.ofString, Full.text, String.toList_ofList]
  refine encode_of_ascii ?_
  simp only [Full.chars, List.forall_mem_append, List.forall_mem_cons]
  exact ⟨forall_mem_dateChars _ (by decide) (by decide), by decide,
    forall_mem_timeChars _ _ _ (by decide) (by decide),
    forall_mem_fractionChars _ (by decide) (by decide),
    by
      cases x.zone with
      | utc => exact List.forall_mem_singleton.mpr (by decide)
      | shifted =>
        exact forall_mem_offsetChars _ _ _ (by decide) (by decide) (by decide) (by decide)⟩

/-- What a timestamp in full is read as, before it is known to exist. -/
theorem parts?_chars (h : x.IsValid 6) :
    parts? (x.chars.map byte) = some (x.date, x.truncated.time, some x.zone.micros) := by
  have hzone :=
    timeAndOffset?_zone h.zone (not_beginsOffset_time x.fraction) fun following hfollowing =>
    clock?_time (Nat.lt_trans h.hour (by decide)) (Nat.lt_trans h.minute (by decide))
      (Nat.lt_trans h.second (by decide)) h.fraction hfollowing
  have hdate (rest : Bytes) : ((dateChars x.date).map byte ++ rest).drop 10 = rest :=
    List.drop_left' (by simp)
  have hlength (rest : Bytes) : ¬ ((dateChars x.date).map byte ++ rest).length < 7 := by
    rw [List.length_append, List.length_map, length_dateChars]
    omega
  have hseparator : characterLength (byte 'T') = 1 := by decide
  have hhead (rest : Bytes) : head (byte 'T' :: rest) = byte 'T' := rfl
  -- The date is ten characters long, so that the time begins behind the separator.
  simp only [Full.chars, List.map_append, List.map_cons] at hzone ⊢
  simp only [parts?, hlength, if_false, dateLength_dateChars, date?_dateChars h.date, hdate, hhead,
    hseparator,
    List.isEmpty_cons, Bool.false_eq_true, List.drop_succ_cons, List.drop_zero]
  rw [← List.append_assoc, hzone]
  rfl

/-- A time and date that exist make a timestamp. -/
theorem timestamp_of_isValid {t : TimeOfDay} {offset : Int} (hdate : d.isValid = true)
    (htime : t.isValid = true)
    (hoffset : offset.natAbs < 86400000000) :
    timestamp d t (some offset) = .ok ⟨d, t, some offset⟩ := by
  simp only [Date.isValid, TimeOfDay.isValid, Bool.and_eq_true, decide_eq_true_eq] at hdate htime
  simp only [timestamp, existing, Option.getD_some]
  grind

/-- A fraction of up to nine digits is less than a second. -/
theorem Fraction.nanos_lt {f : Fraction} (h : f.IsWithin 9) : f.nanos < 1000000000 := by
  obtain ⟨hplaces, hvalue⟩ := h
  calc f.value * 10 ^ (9 - f.places)
      < 10 ^ f.places * 10 ^ (9 - f.places) :=
        Nat.mul_lt_mul_of_pos_right hvalue (Nat.pow_pos (by decide))
    _ = 10 ^ 9 := by rw [← Nat.pow_add, Nat.add_sub_cancel' hplaces]

/-- A valid timestamp stays valid if its fraction is cut. -/
theorem Full.isValid_truncated {most : Nat} (h : x.IsValid most) (hmost : most ≤ 9) :
    x.truncated.time.isValid = true := by
  have hnanos : x.nanos < 1000000000 := by
    rw [Full.nanos, nanosOf]
    cases hfraction : x.fraction with
    | none => decide
    | some f =>
      obtain ⟨hplaces, hvalue⟩ := h.fraction f hfraction
      exact Fraction.nanos_lt ⟨Nat.le_trans hplaces hmost, hvalue⟩
  simp only [TimeOfDay.isValid, Full.truncated, h.hour, h.minute, h.second, decide_true,
    Bool.true_and]
  exact decide_eq_true (Nat.div_lt_of_lt_mul hnanos)

/-- A valid zone is less than a day off. -/
theorem Zone.natAbs_micros_lt {zone : Zone} (h : zone.IsValid) :
    zone.micros.natAbs < 86400000000 := by
  cases zone with
  | utc => decide
  | shifted behind hours minutes =>
    obtain ⟨hhours, hminutes⟩ := h
    cases behind <;> simp only [micros, if_true, Bool.false_eq_true, if_false] <;> omega

/-- A timestamp in full to the microsecond is read as what it says. -/
theorem parse_text (h : x.IsValid 6) : parse x.text = .ok x.truncated := by
  rw [parse, ofString_text, parts?_chars h]
  exact timestamp_of_isValid h.date (Full.isValid_truncated h (by decide))
    (Zone.natAbs_micros_lt h.zone)

end

end Slipway.Calendar.Iso
