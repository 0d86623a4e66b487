import Slipway.Engine.StartTime
import Slipway.Proofs.Calendar.Iso

/-!
# `Slipway.Proofs.Engine.StartTime`: what is kept of a reported start

The engine reports nanoseconds. `parse_truncates` states that the start is read as the reported
instant in whole microseconds, rounded down, on a clock with the reported offset, and that only a
text that is missing, empty or of the year 1 is read as no start.

The text is changed before it is read: `Z` becomes an offset and the fraction loses its digits after
the sixth. What is read then is again a timestamp in full (`cutFractions_chars`), cut to the
microsecond, and what is cut off changes none of its microseconds (`Full.truncated_cut`). -/

set_option autoImplicit false

namespace Slipway.Calendar.Iso

/-! ### Timestamps cut to the microsecond -/

/-- A fraction without the digits after its sixth. -/
def Fraction.cut (f : Fraction) : Fraction := ⟨min f.places 6, f.value / 10 ^ (f.places - 6)⟩

/-- A zone as its offset: UTC is the offset zero. -/
def Zone.numeric : Zone → Zone
  | .utc => .shifted false 0 0
  | zone => zone

/-- A timestamp with its fraction cut and its zone as an offset. -/
def Full.cut (x : Full) : Full :=
  { x with fraction := x.fraction.map Fraction.cut, zone := x.zone.numeric }

section
variable {f : Fraction} {x : Full}

/-- A cut fraction is written with the first six of its digits. -/
theorem Fraction.chars_cut (f : Fraction) :
    f.cut.chars = '.' :: (Text.Digit.padded 10 f.places f.value).take 6 := by
  rw [chars, cut]
  obtain hplaces | hplaces := Nat.le_total f.places 6
  · rw [Nat.min_eq_left hplaces, Nat.sub_eq_zero_of_le hplaces, Nat.pow_zero, Nat.div_one,
      List.take_of_length_le (by rwa [Text.Digit.length_padded])]
  · obtain ⟨extra, hextra⟩ := Nat.exists_eq_add_of_le hplaces
    rw [Nat.min_eq_right hplaces, hextra, Text.Digit.take_padded, Nat.add_sub_cancel_left]

/-- A fraction of up to nine digits is cut to one of up to six. -/
theorem Fraction.isWithin_cut (h : f.IsWithin 9) : f.cut.IsWithin 6 := by
  obtain ⟨-, hvalue⟩ := h
  refine ⟨Nat.min_le_right .., Nat.div_lt_of_lt_mul ?_⟩
  rwa [← Nat.pow_add, show f.places - 6 + f.cut.places = f.places by simp only [cut]; omega]

/-- The digits after the sixth count less than a microsecond. -/
theorem Fraction.nanos_cut_div (h : f.places ≤ 9) : f.cut.nanos / 1000 = f.nanos / 1000 := by
  rw [nanos_div (Nat.min_le_right ..), cut]
  obtain hplaces | hplaces := Nat.le_total f.places 6
  · rw [nanos_div hplaces, Nat.min_eq_left hplaces, Nat.sub_eq_zero_of_le hplaces, Nat.pow_zero,
      Nat.div_one]
  · -- the digits that are cut off and those that are missing are the three after the sixth
    have hthousand : 1000 = 10 ^ (f.places - 6) * 10 ^ (9 - f.places) := by
      rw [← Nat.pow_add, show f.places - 6 + (9 - f.places) = 3 by omega]
    rw [Nat.min_eq_right hplaces, Nat.sub_self, Nat.pow_zero, Nat.mul_one, nanos, hthousand,
      Nat.mul_div_mul_right _ _ (Nat.pow_pos (by decide))]

/-- A zone has the same offset in digits. -/
theorem Zone.micros_numeric (zone : Zone) : zone.numeric.micros = zone.micros := by
  cases zone <;> rfl

/-- A valid zone is valid in digits. -/
theorem Zone.isValid_numeric {zone : Zone} (h : zone.IsValid) : zone.numeric.IsValid := by
  cases zone with
  | utc => exact ⟨by decide, by decide⟩
  | shifted => exact h

/-- A time stays valid when its fraction is cut. -/
theorem Full.isValid_cut (h : x.IsValid 9) : x.cut.IsValid 6 where
  date := h.date
  hour := h.hour
  minute := h.minute
  second := h.second
  fraction g hg := by
    obtain ⟨f, hf, rfl⟩ := Option.map_eq_some_iff.mp hg
    exact Fraction.isWithin_cut (h.fraction f hf)
  zone := Zone.isValid_numeric h.zone

/-- What is cut off is less than a microsecond. -/
theorem Full.truncated_cut (h : x.IsValid 9) : x.cut.truncated = x.truncated := by
  have hnanos : x.cut.nanos / 1000 = x.nanos / 1000 := by
    rw [nanos, nanos, nanosOf, nanosOf, cut]
    cases hfraction : x.fraction with
    | none => rfl
    | some f => exact Fraction.nanos_cut_div (h.fraction f hfraction).1
  rw [truncated, truncated, hnanos, cut, Zone.micros_numeric]

/-- The microseconds of a timestamp are whole ones of its nanoseconds. -/
theorem Full.instant_truncated (x : Full) : x.truncated.instant = x.instant / 1000 := by
  simp only [Timestamp.instant, truncated, TimeOfDay.micros, instant, Option.getD_some]
  omega

end

end Slipway.Calendar.Iso

namespace Slipway.Engine.StartTime

open Slipway.Calendar (Timestamp)
open Slipway.Calendar.Iso
open Slipway.Text.Digit (padded)

/-! ### The text that is read -/

section
variable {s t : List Char}

/-- Texts one after the other get their offsets on their own. -/
theorem withOffset_append (s t : List Char) : withOffset (s ++ t) = withOffset s ++ withOffset t :=
  List.flatMap_append

/-- A text without a `Z` stays as it is. -/
theorem withOffset_of_ne (h : ∀ c ∈ s, c ≠ 'Z') : withOffset s = s := by
  induction s with
  | nil => rfl
  | cons c s ih =>
    obtain ⟨hc, hs⟩ := List.forall_mem_cons.mp h
    rw [withOffset, List.flatMap_cons, if_neg hc, ← withOffset, ih hs]
    rfl

/-- A zone is rewritten into digits, and one in digits stays as it is. -/
theorem withOffset_chars (zone : Zone) : withOffset zone.chars = zone.numeric.chars := by
  cases zone with
  | utc => rfl
  | shifted =>
    exact withOffset_of_ne
      (forall_mem_offsetChars _ _ _ (by decide) (by decide) (by decide) (by decide))

/-- Up to the first point a text stays as it is. -/
theorem cutFractions_append (h : ∀ c ∈ s, c ≠ '.') :
    cutFractions none (s ++ t) = s ++ cutFractions none t := by
  induction s with
  | nil => rfl
  | cons c s ih =>
    obtain ⟨hc, hs⟩ := List.forall_mem_cons.mp h
    rw [List.cons_append, cutFractions, if_neg hc, ih hs]
    split <;> rfl

/-- Of the digits after a point the first six stay. -/
theorem cutFractions_digits {n : Nat} (h : ∀ c ∈ s, c ≠ '.' ∧ isDigit c = true) (hn : n ≤ 6) :
    ∃ m, cutFractions (some n) (s ++ t) = s.take (6 - n) ++ cutFractions (some m) t := by
  induction s generalizing n with
  | nil => exact ⟨n, by simp⟩
  | cons c s ih =>
    obtain ⟨⟨hpoint, hdigit⟩, hs⟩ := List.forall_mem_cons.mp h
    simp only [List.cons_append, cutFractions, hpoint, hdigit, if_false, if_true]
    -- a digit that stays raises the count, and one that goes leaves it
    split
    · next hlt =>
      obtain ⟨m, hm⟩ := ih hs (show n + 1 ≤ 6 from hlt)
      exact ⟨m,
        by rw [hm, show 6 - n = 6 - (n + 1) + 1 by omega, List.take_succ_cons, List.cons_append]⟩
    · next hge =>
      obtain ⟨m, hm⟩ := ih hs hn
      rw [show 6 - n = 0 by omega] at hm ⊢
      exact ⟨m, hm⟩

/-- The digits end with the offset, which has no point. -/
theorem cutFractions_offsetChars (count : Option Nat) (behind : Bool) (hours minutes : Nat) :
    cutFractions count (Zone.shifted behind hours minutes).chars =
      (Zone.shifted behind hours minutes).chars := by
  have hplain := cutFractions_append (t := []) <|
    forall_mem_offsetChars (p := (· ≠ '.')) behind hours minutes (by decide) (by decide) (by decide)
      (by decide)
  obtain ⟨sign, rest, hchars, hsign, hdigit⟩ : ∃ sign rest,
      (Zone.shifted behind hours minutes).chars = sign :: rest ∧ sign ≠ '.' ∧
      isDigit sign = false := by
    cases behind with
    | false => exact ⟨'+', _, rfl, by decide, by decide⟩
    | true => exact ⟨'-', _, rfl, by decide, by decide⟩
  simp only [hchars, List.append_nil, cutFractions, hsign, hdigit, if_false,
    Bool.false_eq_true] at hplain ⊢
  exact hplain

/-- Behind a fraction stands the zone in digits, where the cut ends. -/
theorem cutFractions_fractionChars (fraction : Option Fraction) (behind : Bool)
    (hours minutes : Nat) :
    cutFractions none (fractionChars fraction ++ (Zone.shifted behind hours minutes).chars)
      = fractionChars (fraction.map Fraction.cut) ++ (Zone.shifted behind hours minutes).chars := by
  cases fraction with
  | none => exact cutFractions_offsetChars none behind hours minutes
  | some f =>
    have hdigits : ∀ c ∈ padded 10 f.places f.value, c ≠ '.' ∧ isDigit c = true :=
      Text.Digit.forall_mem_padded (by decide)
    obtain ⟨m, hm⟩ :=
      cutFractions_digits (t := (Zone.shifted behind hours minutes).chars) hdigits (Nat.zero_le 6)
    simp only [fractionChars, Option.map_some, Option.getD_some, Fraction.chars_cut]
    rw [Fraction.chars, List.cons_append, cutFractions, if_pos rfl, hm, cutFractions_offsetChars,
      List.cons_append]

/-- What is read is the timestamp cut to the microsecond. -/
theorem cutFractions_chars (x : Full) : cutFractions none (withOffset x.chars) = x.cut.chars := by
  -- Neither the date nor the time of day holds a character that is rewritten.
  have hfront : ∀ c ∈ dateChars x.date ++ 'T' :: timeChars x.hour x.minute x.second, c ≠ 'Z' ∧
      c ≠ '.' := by
    rw [List.forall_mem_append, List.forall_mem_cons]
    exact ⟨forall_mem_dateChars _ (by decide) (by decide), by decide,
      forall_mem_timeChars _ _ _ (by decide) (by decide)⟩
  have hfraction : ∀ c ∈ fractionChars x.fraction, c ≠ 'Z' :=
    forall_mem_fractionChars _ (by decide) (by decide)
  have hchars (y : Full) : y.chars = (dateChars y.date ++ 'T' :: timeChars y.hour y.minute y.second)
      ++ (fractionChars y.fraction ++ y.zone.chars) := by
    simp only [Full.chars, List.append_assoc, List.cons_append]
  -- The fraction ends where the zone begins, so the zone must be one in digits.
  obtain ⟨behind, hours, minutes, hzone⟩ :
      ∃ behind hours minutes, x.zone.numeric = .shifted behind hours minutes := by
    cases x.zone with
    | utc => exact ⟨false, 0, 0, rfl⟩
    | shifted behind hours minutes => exact ⟨behind, hours, minutes, rfl⟩
  rw [hchars, withOffset_append, withOffset_of_ne fun c hc => (hfront c hc).1, withOffset_append,
    withOffset_of_ne hfraction, withOffset_chars, cutFractions_append fun c hc => (hfront c hc).2,
    hzone,
    cutFractions_fractionChars, ← hzone, hchars]
  rfl

end

/-! ### The start -/

/-- The text of a start: that of no start is empty or begins with the year 1. -/
def IsUnset (s : String) : Prop := s = "" ∨ "0001-".toList <+: s.toList

/-- The check of the code for a time that was never set, as a proposition. -/
theorem isUnset_iff {s : String} :
    (s.toList.isEmpty || "0001-".toList.isPrefixOf s.toList) = true ↔ IsUnset s := by
  rw [Bool.or_eq_true, List.isEmpty_iff, List.isPrefixOf_iff_prefix, String.toList_eq_nil_iff,
    IsUnset]

/-- A time that was never set is read as none. -/
theorem parse_of_isUnset {s : String} (h : IsUnset s) : parse (some s) = .ok none :=
  if_pos (isUnset_iff.mpr h)

/-- A text that is set is the start that is read. -/
theorem parse_of_read {s : String} {t : Timestamp} (h : ¬ IsUnset s)
    (hread : Calendar.Iso.parse (String.ofList (cutFractions none (withOffset s.toList))) = .ok t) :
    parse (some s) = .ok (some t) := by
  rw [parse]
  simp only [mt isUnset_iff.mp h, if_false, Bool.false_eq_true, hread]

/-- A text is read as no start exactly if it is missing or unset. -/
theorem parse_eq_none_iff {text : Option String} :
    parse text = .ok none ↔ text = none ∨ ∃ s, text = some s ∧ IsUnset s := by
  constructor
  · intro h
    cases text with
    | none => exact .inl rfl
    | some s =>
      refine .inr ⟨s, rfl, ?_⟩
      rw [parse] at h
      -- What is not unset is read as a time or refused.
      split at h
      · next hunset => exact isUnset_iff.mp hunset
      · split at h <;> simp at h
  · rintro (rfl | ⟨s, rfl, hunset⟩)
    · rfl
    · exact parse_of_isUnset hunset

/-- A year of four digits is known by them. -/
theorem not_isUnset_text {x : Full} (h : x.IsValid 9) (hyear : x.date.year ≠ 1) :
    ¬ IsUnset x.text := by
  -- Years have four digits, so only the year one starts with `0001`.
  have hlast : x.date.year < 10 ^ 4 := by
    have hdate := h.date
    simp only [Calendar.Date.isValid, Bool.and_eq_true, decide_eq_true_eq] at hdate
    omega
  have hdigits : x.chars.take 4 = padded 10 4 x.date.year := by
    rw [Full.chars, dateChars, List.append_assoc, List.take_left' (by simp)]
  have htext : x.text.toList = x.chars := String.toList_ofList
  rintro (hempty | ⟨rest, hrest⟩)
  · rw [hempty] at htext
    simp [← htext, padded] at hdigits
  · have hone : padded 10 4 x.date.year = padded 10 4 1 := by
      rw [← hdigits, ← htext, ← hrest]
      rfl
    exact hyear (by rw [← Text.Digit.number_padded hlast, hone]; rfl)

/-- A start is read to the microsecond. -/
theorem parse_text {x : Full} (h : x.IsValid 9) (hyear : x.date.year ≠ 1) :
    parse (some x.text) = .ok (some x.truncated) := by
  have hread := Calendar.Iso.parse_text (Full.isValid_cut h)
  rw [Full.text, ← cutFractions_chars, Full.truncated_cut h] at hread
  exact parse_of_read (not_isUnset_text h hyear) (by rwa [Full.text, String.toList_ofList])

/-- With one offset, truncated timestamps come in the order of their microseconds. -/
theorem isBefore_truncated_iff {x y : Full} (hx : x.IsValid 9) (hy : y.IsValid 9)
    (hoffset : x.zone.micros = y.zone.micros) :
    x.truncated.IsBefore y.truncated ↔ x.instant / 1000 < y.instant / 1000 := by
  rw [Timestamp.isBefore_iff hx.date (Full.isValid_truncated hx (by decide)) hy.date
    (Full.isValid_truncated hy (by decide)) (congrArg some hoffset), Full.instant_truncated,
    Full.instant_truncated]

/-- Of a start that is reported in full, in any year but the first, the digits after the
microseconds are lost and nothing else, so it is never read as later, and two starts with one offset
keep their order, field by field. No other text than one that is missing, empty or begins with the
year 1 is read as no start. -/
theorem parse_truncates :
    (∀ x : Full, x.IsValid 9 → x.date.year ≠ 1 →
      parse (some x.text) = .ok (some x.truncated) ∧ x.truncated.instant = x.instant / 1000 ∧
        x.truncated.instant * 1000 ≤ x.instant) ∧
    (∀ x y : Full, x.IsValid 9 → y.IsValid 9 → x.date.year ≠ 1 → y.date.year ≠ 1 →
      x.zone.micros = y.zone.micros →
      ∃ t u, parse (some x.text) = .ok (some t) ∧ parse (some y.text) = .ok (some u) ∧
        (t.IsBefore u ↔ x.instant / 1000 < y.instant / 1000) ∧
        (x.instant ≤ y.instant → ¬ u.IsBefore t)) ∧
    ∀ text, parse text = .ok none ↔
      text = none ∨ text = some "" ∨ ∃ s, text = some s ∧ "0001-".toList <+: s.toList := by
  refine ⟨fun x hx hyear => ?_, fun x y hx hy hxyear hyyear hoffset => ?_, fun text => ?_⟩
  · have hinstant := Full.instant_truncated x
    exact ⟨parse_text hx hyear, hinstant, by omega⟩
  · refine ⟨_, _, parse_text hx hxyear, parse_text hy hyyear, isBefore_truncated_iff hx hy hoffset,
      fun hle hbefore => ?_⟩
    have hlt := (isBefore_truncated_iff hy hx hoffset.symm).mp hbefore
    omega
  · rw [parse_eq_none_iff]
    grind [IsUnset]

/-- A start in the last second of a leap day, half past five hours ahead of UTC. -/
def leapDay : Full := ⟨⟨2024, 2, 29⟩, 23, 59, 59, some ⟨9, 123456789⟩, .shifted false 5 30⟩

/-- A time with nine digits on a leap day, east of Greenwich. -/
theorem parse_truncates_leapDay : leapDay.IsValid 9 ∧ leapDay.date.year ≠ 1 ∧
    parse (some "2024-02-29T23:59:59.123456789+05:30")
      = .ok (some ⟨⟨2024, 2, 29⟩, ⟨23, 59, 59, 123456⟩, some 19800000000⟩) := by
  have hvalid : leapDay.IsValid 9 :=
    ⟨by decide, by decide, by decide, by decide,
      fun f hf => by cases hf; exact ⟨by decide, by decide⟩,
      by decide, by decide⟩
  exact ⟨hvalid, by decide, (parse_truncates.1 leapDay hvalid (by decide)).1⟩

end Slipway.Engine.StartTime
