import Slipway.Calendar.Basic

/-!
# `Slipway.Proofs.Calendar.Order`: timestamps in the order of their fields

Two timestamps with one offset are ordered by their fields, the year first and the microseconds
last. `Timestamp.isBefore_iff` states that this is the order of the instants.

A field divides the time line into blocks: the years of the calendar (`areBlocks_years`), the months
of a year (`areBlocks_months`), the days, and so on. Each begins where the one before it ends. So of
two places in different blocks that in the later block is later, and in one block the next field
decides (`AreBlocks.areBefore_cons_iff`). -/

set_option autoImplicit false

namespace Slipway.Calendar

/-- Whether fields come before others: the first in which they differ decides. -/
def AreBefore (fields others : List Nat) : Prop := List.Lex (· < ·) fields others

/-- Of two lists the one with the smaller head is before the other, and else the tails decide. -/
theorem areBefore_cons {a b : Nat} {as bs : List Nat} :
    AreBefore (a :: as) (b :: bs) ↔ a < b ∨ a = b ∧ AreBefore as bs :=
  List.cons_lex_cons_iff

/-- Nothing is before nothing. -/
theorem not_areBefore_nil : ¬ AreBefore [] [] := List.not_lex_nil

/-! ### Blocks -/

/-- Blocks of a line, from a first one on: each begins where the one before it ends. -/
def AreBlocks (first : Nat) (start length : Nat → Nat) : Prop :=
  ∀ a ≥ first, start (a + 1) = start a + length a

namespace AreBlocks

variable {start length : Nat → Nat} {first : Nat}

/-- A block ends before every later one begins. -/
theorem end_le_start (h : AreBlocks first start length) {a b : Nat} (ha : first ≤ a) (hab : a < b) :
    start a + length a ≤ start b := by
  induction hab with
  | refl => exact Nat.le_of_eq (h a ha).symm
  | step hab ih =>
    rw [h _ (Nat.le_trans ha (Nat.le_of_lt hab))]
    exact Nat.le_add_right_of_le ih

/-- Two places are ordered by their blocks, and in one block by what decides there. -/
theorem areBefore_cons_iff (h : AreBlocks first start length) {a b i j : Nat} {as bs : List Nat}
    (ha : first ≤ a) (hb : first ≤ b) (hi : i < length a) (hj : j < length b)
    (hwithin : a = b → (AreBefore as bs ↔ i < j)) :
    AreBefore (a :: as) (b :: bs) ↔ start a + i < start b + j := by
  rw [areBefore_cons]
  -- Of different blocks the earlier one ends before the later one starts.
  obtain hab | rfl | hba := Nat.lt_trichotomy a b
  · have hend := h.end_le_start ha hab
    simp only [hab, true_or, true_iff]
    omega
  · simp [hwithin rfl]
  · have hend := h.end_le_start hb hba
    simp only [Nat.lt_asymm hba, Nat.ne_of_gt hba, false_and, or_false, false_iff]
    omega

/-- The blocks remain so in a smaller unit. -/
theorem scaled (h : AreBlocks first start length) (unit : Nat) :
    AreBlocks first (fun a => start a * unit) (fun a => length a * unit) := by
  intro a ha
  simp only [h a ha, Nat.add_mul]

end AreBlocks

/-- Blocks of one length, counted from one or from zero. -/
theorem areBlocks_even (first length : Nat) :
    AreBlocks first (fun a => (a - first) * length) fun _ => length := by
  intro a ha
  simp only [Nat.sub_add_comm ha, Nat.succ_mul]

/-! ### Days -/

/-- How many days a year has. -/
def daysInYear (year : Nat) : Nat := if isLeap year then 366 else 365

/-- Years are blocks of days. -/
theorem areBlocks_years : AreBlocks 1 daysBeforeYear daysInYear := by
  intro year hyear
  obtain ⟨y, rfl⟩ : ∃ y, year = y + 1 := ⟨year - 1, by omega⟩
  have hstep (n : Nat) : (y + 1) / n = y / n + if (y + 1) % n = 0 then 1 else 0 := by
    simp only [Nat.succ_div, Nat.dvd_iff_mod_eq_zero]
  -- each of the three quotients grows at the years that it counts
  have hcenturies : y / 100 ≤ y / 4 := Nat.div_le_div_left (by decide) (by decide)
  have h100 : (y + 1) % 100 = 0 → (y + 1) % 4 = 0 := by omega
  have h400 : (y + 1) % 400 = 0 → (y + 1) % 100 = 0 := by omega
  have hleap : daysInYear (y + 1) = 365 + (if (y + 1) % 4 = 0 then 1 else 0)
      - (if (y + 1) % 100 = 0 then 1 else 0) + (if (y + 1) % 400 = 0 then 1 else 0) := by
    simp only [daysInYear, isLeap, Bool.and_eq_true, Bool.or_eq_true, beq_iff_eq, bne_iff_ne]
    grind
  simp only [daysBeforeYear, Nat.add_sub_cancel, hstep 4, hstep 100, hstep 400, hleap]
  grind

/-- Months are blocks of days in a year. -/
theorem areBlocks_months (year : Nat) : AreBlocks 0 (daysBeforeMonth year) (daysInMonth year) := by
  intro month _
  cases month with
  | zero => rfl
  | succ m =>
    simp only [daysBeforeMonth, Nat.add_sub_cancel, List.range_succ, List.foldl_append,
      List.foldl_cons,
      List.foldl_nil]

/-- The twelve months make up the year. -/
theorem daysBeforeMonth_thirteen (year : Nat) : daysBeforeMonth year 13 = daysInYear year := by
  have hnext (m : Nat) : daysBeforeMonth year (m + 1) =
      daysBeforeMonth year m + daysInMonth year m :=
    areBlocks_months year m (Nat.zero_le m)
  simp only [hnext, daysInYear, daysInMonth]
  cases isLeap year <;> rfl

/-- No month is longer than 31 days. -/
theorem daysInMonth_le (year month : Nat) : daysInMonth year month ≤ 31 := by
  unfold daysInMonth
  split <;> (try split) <;> omega

/-- The days of a month lie in its year. -/
theorem lt_daysInYear {year month i : Nat} (hmonth : month ≤ 12) (hi : i < daysInMonth year month) :
    daysBeforeMonth year month + i < daysInYear year := by
  have hend := (areBlocks_months year).end_le_start (Nat.zero_le _) (show month < 13 by omega)
  rw [daysBeforeMonth_thirteen] at hend
  omega

/-! ### Timestamps -/

namespace TimeOfDay

/-- The fields of a time of day, the longest first. -/
def fields (t : TimeOfDay) : List Nat := [t.hour, t.minute, t.second, t.micro]

variable {t u : TimeOfDay}

/-- A valid time of day is before the end of the day. -/
theorem micros_lt (h : t.isValid = true) : t.micros < 86400000000 := by
  simp only [isValid, Bool.and_eq_true, decide_eq_true_eq] at h
  rw [micros]
  omega

/-- Times of day are in order as their fields are. -/
theorem areBefore_fields_iff (ht : t.isValid = true) (hu : u.isValid = true) :
    AreBefore t.fields u.fields ↔ t.micros < u.micros := by
  simp only [isValid, Bool.and_eq_true, decide_eq_true_eq] at ht hu
  -- from the last field outwards, each in the unit of the microseconds
  have hmicro : AreBefore [t.micro] [u.micro] ↔ t.micro < u.micro := by
    rw [areBefore_cons]
    exact or_iff_left fun h => not_areBefore_nil h.2
  have hsecond :=
    (areBlocks_even 0 1000000).areBefore_cons_iff (Nat.zero_le t.second) (Nat.zero_le u.second)
    ht.2 hu.2 fun _ => hmicro
  have hminute :=
    (areBlocks_even 0 60000000).areBefore_cons_iff (Nat.zero_le t.minute) (Nat.zero_le u.minute)
    (by omega) (by omega) fun _ => hsecond
  have hhour :=
    (areBlocks_even 0 3600000000).areBefore_cons_iff (Nat.zero_le t.hour) (Nat.zero_le u.hour)
    (by omega) (by omega) fun _ => hminute
  rw [fields, fields, hhour, micros, micros]
  omega

end TimeOfDay

namespace Timestamp

/-- The fields of a timestamp, the longest first. -/
def fields (t : Timestamp) : List Nat := t.date.year :: t.date.month :: t.date.day :: t.time.fields

variable {t u : Timestamp}

/-- An instant by the microseconds from the first day of the calendar to what the clock shows. -/
theorem instant_eq (t : Timestamp) :
    t.instant =
      (t.date.ordinal * 86400000000 + t.time.micros : Nat) - (epochDay * 86400000000 : Nat)
      - t.offset.getD 0 := by
  rw [instant, Date.dayNumber]
  omega

/-- Whether a timestamp comes before another by their fields, the year first. -/
def IsBefore (t u : Timestamp) : Prop := AreBefore t.fields u.fields

/-- On clocks with one offset the order of the fields is that of the instants. -/
theorem isBefore_iff (htdate : t.date.isValid = true) (httime : t.time.isValid = true)
    (hudate : u.date.isValid = true) (hutime : u.time.isValid = true)
    (hoffset : t.offset = u.offset) :
    t.IsBefore u ↔ t.instant < u.instant := by
  have htmicros := TimeOfDay.micros_lt httime
  have humicros := TimeOfDay.micros_lt hutime
  simp only [Date.isValid, Bool.and_eq_true, decide_eq_true_eq] at htdate hudate
  obtain ⟨⟨⟨⟨⟨htyear, -⟩, -⟩, htmonth⟩, htfirst⟩, htlast⟩ := htdate
  obtain ⟨⟨⟨⟨⟨huyear, -⟩, -⟩, humonth⟩, hufirst⟩, hulast⟩ := hudate
  have htyears :=
    lt_daysInYear htmonth (show t.date.day - 1 < daysInMonth t.date.year t.date.month by omega)
  have huyears :=
    lt_daysInYear humonth (show u.date.day - 1 < daysInMonth u.date.year u.date.month by omega)
  have hday := (areBlocks_even 1 86400000000).areBefore_cons_iff htfirst hufirst htmicros humicros
    fun _ => TimeOfDay.areBefore_fields_iff httime hutime
  -- the blocks of the months are those of one year, so they are compared within it only
  have hmonth (hyear : t.date.year = u.date.year) :=
    ((areBlocks_months t.date.year).scaled 86400000000).areBefore_cons_iff
      (Nat.zero_le t.date.month) (Nat.zero_le u.date.month)
      (show (t.date.day - 1) * 86400000000 + t.time.micros < _ by omega)
      (show (u.date.day - 1) * 86400000000 + u.time.micros < _ by rw [hyear]; omega) fun _ => hday
  have hyear := (areBlocks_years.scaled 86400000000).areBefore_cons_iff htyear huyear
    (show daysBeforeMonth t.date.year t.date.month * 86400000000
      + ((t.date.day - 1) * 86400000000 + t.time.micros) < _ by omega)
    (show daysBeforeMonth u.date.year u.date.month * 86400000000
      + ((u.date.day - 1) * 86400000000 + u.time.micros) < _ by omega)
    fun heq => by rw [hmonth heq, ← heq]
  rw [IsBefore, fields, fields, hyear, instant_eq, instant_eq, Date.ordinal, Date.ordinal, hoffset]
  omega

end Timestamp
end Slipway.Calendar
