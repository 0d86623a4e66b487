import Mathlib.Data.List.TakeWhile
import Slipway.Json.Printer
import Slipway.Json.Reader
import Slipway.Proofs.Text.Digit

/-!
# `Slipway.Proofs.Json`: what is printed is read back

A value without floating-point numbers is the same after it is printed and read. Every reader is
followed on what the printer writes, in front of any rest: a UTF-16 unit on its four digits, an
escape on the character that it stands for, a text up to its closing quote, then values by induction
on how they are built. The fuel of the reader is measured by the text that is left.
-/

set_option autoImplicit false

namespace Slipway

open Slipway.Text.Digit (hexValue?_hexDigit mapM_padded padded padded_four number isDigit_toDigits
  number_toDigits signOf toList_toString)

variable {style : Json.Style} {fuel : Nat} {rest : List Char}

namespace Json

/-! ### Blanks -/

/-- Blanks, such as those after a separator. -/
def AreBlank (s : List Char) : Prop := ∀ c ∈ s, Reader.isSpace c = true

/-- The separators of a style are those of JSON: a comma and a colon, with blanks after them. -/
structure Style.IsProper (style : Style) : Prop where
  item : ∃ blanks, style.itemSeparator.toList = ',' :: blanks ∧ AreBlank blanks
  key : ∃ blanks, style.keySeparator.toList = ':' :: blanks ∧ AreBlank blanks

/-- The compact style separates with characters that a reader expects. -/
theorem compact_isProper : compact.IsProper where
  item := ⟨[], rfl, by simp [AreBlank]⟩
  key := ⟨[], rfl, by simp [AreBlank]⟩

/-- So does the spaced style. -/
theorem spaced_isProper : spaced.IsProper where
  item := ⟨[' '], rfl, by simp [AreBlank, Reader.isSpace]⟩
  key := ⟨[' '], rfl, by simp [AreBlank, Reader.isSpace]⟩

/-- A value without floating-point numbers. -/
inductive IsExact : Json → Prop
  | null : IsExact null
  | bool (b : Bool) : IsExact (bool b)
  | int (n : Int) : IsExact (int n)
  | text (s : String) : IsExact (text s)
  | list {items : List Json} (h : ∀ v ∈ items, IsExact v) : IsExact (list items)
  | object {members : List (String × Json)} (h : ∀ m ∈ members, IsExact m.2) :
      IsExact (object members)

/-- Texts are exact. -/
@[simp]
theorem isExact_text (s : String) : (Json.text s).IsExact := .text s

/-- Truth values are exact. -/
@[simp]
theorem isExact_bool (b : Bool) : (Json.bool b).IsExact := .bool b

/-- A list is exact if its items are. -/
@[simp]
theorem isExact_list {items : List Json} : (list items).IsExact ↔ ∀ v ∈ items, v.IsExact :=
  ⟨fun h => by cases h with | list h => exact h, .list⟩

/-- An object is exact if the values of its members are. -/
@[simp]
theorem isExact_object {members : List (String × Json)} :
    (object members).IsExact ↔ ∀ m ∈ members, m.2.IsExact :=
  ⟨fun h => by cases h with | object h => exact h, .object⟩

/-- An object of which no two members share a name, so that each is the only one of its name. -/
def IsDistinct (v : Json) : Prop := ∃ members, v = object members ∧ (members.map Prod.fst).Nodup

/-- What follows a value does not go on with a number. -/
def EndsNumber (rest : List Char) : Prop := ∀ c ∈ rest.head?, Reader.inNumber c = false

/-- A number ends before a character that cannot continue it. -/
theorem endsNumber_cons {c : Char} (h : Reader.inNumber c = false) : EndsNumber (c :: rest) := by
  intro d hd
  cases hd
  exact h

/-- A number ends where the text does. -/
theorem endsNumber_nil : EndsNumber [] := by
  intro c hc
  cases hc

namespace Reader

/-- Blanks are skipped. -/
theorem skip_blanks {blanks : List Char} (h : AreBlank blanks) (s : List Char) :
    skip (blanks ++ s) = skip s := List.dropWhile_append_of_pos h

/-- Nothing is skipped before a character that is no blank. -/
theorem skip_cons {c : Char} (h : isSpace c = false) (s : List Char) : skip (c :: s) = c :: s := by
  simp [skip, h]

/-- Blanks in front of a value are passed over. -/
theorem value?_blanks {blanks : List Char} (h : AreBlank blanks) (fuel : Nat) (s : List Char) :
    value? fuel (blanks ++ s) = value? fuel s := by
  cases fuel with
  | zero => rfl
  | succ fuel => rw [value?, value?, skip_blanks h]

/-- Blanks before an item are skipped. -/
theorem items?_blanks {blanks : List Char} (h : AreBlank blanks) (fuel : Nat) (s : List Char) :
    items? fuel (blanks ++ s) = items? fuel s := by
  cases fuel with
  | zero => rfl
  | succ fuel => rw [items?, items?, value?_blanks h]

/-- Blanks before a member are skipped. -/
theorem members?_blanks {blanks : List Char} (h : AreBlank blanks) (fuel : Nat) (s : List Char) :
    members? fuel (blanks ++ s) = members? fuel s := by
  cases fuel with
  | zero => rfl
  | succ fuel => rw [members?, members?, skip_blanks h]

/-! ### Texts -/

/-- A UTF-16 unit is read from its four digits. -/
theorem unit?_padded {n : Nat} (h : n < 0x10000) (rest : List Char) :
    unit? (padded 16 4 n ++ rest) = some (n, rest) := by
  have hfour : n < 16 ^ 4 := h
  obtain ⟨values, hread, hnumber⟩ := mapM_padded hexValue?_hexDigit hfour
  rw [padded_four] at hread ⊢
  simp only [List.cons_append, List.nil_append, unit?, hread, hnumber]

/-- A unit that belongs to no pair is a character of its own. -/
theorem escaped?_unit {c : Char} (h : c.toNat < 0x10000) (rest : List Char) :
    escaped? ('u' :: (padded 16 4 c.toNat ++ rest)) = some (c, rest) := by
  have hvalid : c.toNat < 0xD800 ∨ 0xDFFF < c.toNat := by
    cases c.valid with
    | inl h => exact .inl h
    | inr h => exact .inr h.1
  have hhigh : ¬(0xD800 ≤ c.toNat ∧ c.toNat < 0xDC00) := by omega
  have hlow : ¬(0xDC00 ≤ c.toNat ∧ c.toNat < 0xE000) := by omega
  rw [escaped?, unit?_padded h]
  simp [hhigh, hlow]

/-- A pair of units is the character beyond U+FFFF that it stands for. -/
theorem escaped?_pair {c : Char} (h : 0x10000 ≤ c.toNat) (rest : List Char) :
    escaped? ('u' :: (padded 16 4 (0xD800 + (c.toNat - 0x10000) / 0x400)
      ++ '\\' :: 'u' :: (padded 16 4 (0xDC00 + (c.toNat - 0x10000) % 0x400) ++ rest)))
      = some (c, rest) := by
  have hmax : c.toNat < 0x110000 := by
    cases c.valid with
    | inl h => exact Nat.lt_trans h (by decide)
    | inr h => exact h.2
  -- The two units lie in the ranges of high and of low surrogates, and they give the character
  -- back.
  have hfirst : 0xD800 + (c.toNat - 0x10000) / 0x400 < 0xDC00 := by omega
  have hsecond : 0xDC00 + (c.toNat - 0x10000) % 0x400 < 0xE000 := by omega
  have hback : 0x10000 + (0xD800 + (c.toNat - 0x10000) / 0x400 - 0xD800) * 0x400
      + (0xDC00 + (c.toNat - 0x10000) % 0x400 - 0xDC00) = c.toNat := by omega
  rw [escaped?, unit?_padded (Nat.lt_trans hfirst (by decide))]
  simp only [unit?_padded (Nat.lt_trans hsecond (by decide)), hback, Char.ofNat_toNat]
  simp [hfirst, hsecond]

/-- The four ways in which a character is written: with a letter after a backslash, as it is, as one
UTF-16 unit, and as two. -/
inductive Written (asciiOnly : Bool) (c : Char) : List Char → Prop
  | letter (d : Char) (hascii : d.toNat < 0x80)
      (hread : ∀ rest, escaped? (d :: rest) = some (c, rest)) : Written asciiOnly c ['\\', d]
  | plain (hquote : c ≠ '"') (hslash : c ≠ '\\') (hcontrol : 0x20 ≤ c.toNat)
      (hascii : asciiOnly = true → c.toNat < 0x80) : Written asciiOnly c [c]
  | unit (h : c.toNat < 0x10000) : Written asciiOnly c (escapeUnit c.toNat)
  | pair (h : 0x10000 ≤ c.toNat) : Written asciiOnly c
      (escapeUnit (0xD800 + (c.toNat - 0x10000) / 0x400)
        ++ escapeUnit (0xDC00 + (c.toNat - 0x10000) % 0x400))

/-- A character is written in one of the four ways. -/
theorem written_escapeChar (asciiOnly : Bool) (c : Char) :
    Written asciiOnly c (escapeChar asciiOnly c) := by
  have hofNat : ∀ n, c.toNat = n → c = Char.ofNat n := by
    intro n hn
    rw [← hn, Char.ofNat_toNat]
  unfold escapeChar
  -- Seven letters, the other control characters, what is kept, and one or two units for all else.
  split
  case isTrue h => rw [h]; exact .letter '"' (by decide) fun _ => rfl
  split
  case isTrue h => rw [h]; exact .letter '\\' (by decide) fun _ => rfl
  split
  case isTrue h => rw [h]; exact .letter 'n' (by decide) fun _ => rfl
  split
  case isTrue h => rw [h]; exact .letter 'r' (by decide) fun _ => rfl
  split
  case isTrue h => rw [h]; exact .letter 't' (by decide) fun _ => rfl
  split
  case isTrue h => rw [hofNat 8 h]; exact .letter 'b' (by decide) fun _ => rfl
  split
  case isTrue h => rw [hofNat 12 h]; exact .letter 'f' (by decide) fun _ => rfl
  split
  case isTrue h => exact .unit (by omega)
  split
  case isTrue hquote hslash _ _ _ _ _ hcontrol hkept =>
    refine .plain hquote hslash (Nat.not_lt.mp hcontrol) fun hascii => ?_
    rw [hascii, Bool.not_true, Bool.false_or, decide_eq_true_eq] at hkept
    exact Nat.lt_trans hkept (by decide)
  split
  case isTrue h => exact .unit h
  case isFalse h => exact .pair (Nat.not_lt.mp h)

/-- No character is written as nothing. -/
theorem Written.ne_nil {asciiOnly : Bool} {c : Char} {s : List Char} (h : Written asciiOnly c s) :
    s ≠ [] := by
  cases h <;> simp [escapeUnit]

/-- What a character is written as is read as that character. -/
theorem Written.chars?_eq {asciiOnly : Bool} {c : Char} {s : List Char} (h : Written asciiOnly c s)
    (fuel : Nat) (acc rest : List Char) :
    chars? (fuel + 1) acc (s ++ rest) = chars? fuel (c :: acc) rest := by
  -- Three of the ways begin with a backslash, and there the escape decides.
  have hbackslash : ∀ s d t, escaped? s = some (d, t) →
      chars? (fuel + 1) acc ('\\' :: s) = chars? fuel (d :: acc) t := by
    intro s d t hs
    rw [chars?, if_neg (by decide), if_pos rfl, hs]
  cases h with
  | letter d _ hread => exact hbackslash _ c rest (hread rest)
  | plain hquote hslash hcontrol _ =>
    simp [chars?, hquote, hslash, Nat.not_lt.mpr hcontrol]
  | unit h => exact hbackslash _ c rest (escaped?_unit h rest)
  | pair h =>
    rw [List.append_assoc]
    exact hbackslash _ c rest (escaped?_pair h rest)

/-- A text is read up to the quote that closes it. -/
theorem chars?_quoted (asciiOnly : Bool) (s : List Char) (acc rest : List Char)
    (h : (s.flatMap (escapeChar asciiOnly)).length < fuel) :
    chars? fuel acc (s.flatMap (escapeChar asciiOnly) ++ '"' :: rest)
      = some (acc.reverse ++ s, rest) := by
  induction s generalizing fuel acc with
  | nil =>
    obtain ⟨fuel, rfl⟩ := Nat.exists_eq_add_one_of_ne_zero (Nat.ne_of_gt h)
    simp [chars?]
  | cons c s ih =>
    -- A character takes one unit of fuel, and is written with one character at least.
    have hwritten := written_escapeChar asciiOnly c
    have hc : 0 < (escapeChar asciiOnly c).length := List.length_pos_iff.mpr hwritten.ne_nil
    rw [List.flatMap_cons, List.length_append] at h
    obtain ⟨fuel, rfl⟩ := Nat.exists_eq_add_one_of_ne_zero (show fuel ≠ 0 by omega)
    rw [List.flatMap_cons, List.append_assoc, hwritten.chars?_eq, ih (c :: acc) (by omega)]
    simp

/-- A quoted text is read with as much fuel as the reader gives. -/
theorem chars?_quoteChars (asciiOnly : Bool) (s : String) (rest : List Char) :
    ∃ body, quoteChars asciiOnly s.toList ++ rest = '"' :: body
      ∧ chars? (body.length + 1) [] body = some (s.toList, rest) := by
  refine ⟨s.toList.flatMap (escapeChar asciiOnly) ++ '"' :: rest, by simp [quoteChars], ?_⟩
  have hfuel : (s.toList.flatMap (escapeChar asciiOnly)).length
      < (s.toList.flatMap (escapeChar asciiOnly) ++ '"' :: rest).length + 1 := by
    rw [List.length_append]
    omega
  rw [chars?_quoted asciiOnly s.toList [] rest hfuel]
  rfl

/-! ### Numbers -/

/-- The digits of a number are read as that number, and nothing is left of them. -/
theorem digits_toDigits (n : Nat) :
    ∃ d ds, Binary64.Reading.digits (Nat.toDigits 10 n) = (d :: ds, [])
      ∧ number 10 (d :: ds) = n := by
  have hall : (Nat.toDigits 10 n).takeWhile Char.isDigit = Nat.toDigits 10 n :=
    List.takeWhile_eq_self_iff.mpr isDigit_toDigits
  have hnone : (Nat.toDigits 10 n).dropWhile Char.isDigit = [] :=
    List.dropWhile_eq_nil_iff.mpr isDigit_toDigits
  have hnumber := number_toDigits (show 1 < 10 by decide) (Nat.le_refl 10) n
  -- There is always a first digit.
  cases hvalues : (Nat.toDigits 10 n).map fun c => c.toNat - '0'.toNat with
  | nil => exact absurd (List.map_eq_nil_iff.mp hvalues) Nat.toDigits_ne_nil
  | cons d ds =>
    rw [hvalues] at hnumber
    exact ⟨d, ds, by rw [Binary64.Reading.digits, hall, hnone, hvalues], hnumber⟩

/-- The sign of an integer is read from its text. -/
theorem sign_signOf (n : Int) :
    Binary64.Reading.sign (signOf n ++ Nat.toDigits 10 n.natAbs)
      = (decide (n < 0), Nat.toDigits 10 n.natAbs) := by
  unfold signOf
  split
  case isTrue h => simp [Binary64.Reading.sign, h]
  case isFalse h =>
    have hdigit := isDigit_toDigits (n := n.natAbs)
    rw [List.nil_append]
    -- A digit is no sign, so none is taken off.
    cases hdigits : Nat.toDigits 10 n.natAbs with
    | nil => exact absurd hdigits Nat.toDigits_ne_nil
    | cons c cs =>
      rw [hdigits] at hdigit
      have hc : c.isDigit = true := hdigit c (by simp)
      unfold Binary64.Reading.sign
      split
      · simp_all
      · simp_all
      · simp [h]

/-- A character with which an integer may be written. -/
def IsNumeric (c : Char) : Prop := c = '-' ∨ c.isDigit = true

/-- Digits and the sign belong to numbers. -/
theorem IsNumeric.inNumber {c : Char} (h : IsNumeric c) : inNumber c = true := by
  cases h with
  | inl h => rw [h]; rfl
  | inr h => simp [Reader.inNumber, h]

/-- Such a character is none of those that a value of another kind starts with, no blank, and none
that a floating-point number has beside digits. -/
theorem IsNumeric.ne {c : Char} (h : IsNumeric c) {d : Char} (hd : d ≠ '-')
    (hdigit : d.isDigit = false) : c ≠ d := by
  intro hc
  cases h with
  | inl h => exact hd (hc.symm.trans h)
  | inr h =>
    rw [hc, hdigit] at h
    cases h

/-- Digits and the sign are no blanks. -/
theorem IsNumeric.isSpace {c : Char} (h : IsNumeric c) : isSpace c = false := by
  simp [Reader.isSpace, h.ne]

/-- An integer is written with digits and a sign only. -/
theorem isNumeric_of_mem {n : Int} : ∀ c ∈ signOf n ++ Nat.toDigits 10 n.natAbs, IsNumeric c := by
  intro c hc
  cases List.mem_append.mp hc with
  | inl hsign =>
    unfold signOf at hsign
    split at hsign
    · exact .inl (List.mem_singleton.mp hsign)
    · cases hsign
  | inr hdigit => exact .inr (isDigit_toDigits c hdigit)

/-- An integer is read from its text. -/
theorem number?_toString (n : Int) (h : EndsNumber rest) :
    number? ((toString n).toList ++ rest) = some (.int n, rest) := by
  have hends : rest.takeWhile inNumber = [] ∧ rest.dropWhile inNumber = rest := by
    cases rest with
    | nil => simp
    | cons c rest => simp [h c rfl]
  have hin : ∀ c ∈ signOf n ++ Nat.toDigits 10 n.natAbs, inNumber c = true :=
    fun c hc => (isNumeric_of_mem c hc).inNumber
  -- Without a point and without an exponent it is read as an integer.
  have hwhole :
      ((signOf n ++ Nat.toDigits 10 n.natAbs).any fun c => c == '.' || c == 'e' || c == 'E')
      = false := by
    rw [List.any_eq_false]
    intro c hc
    simp [(isNumeric_of_mem c hc).ne]
  obtain ⟨d, ds, hdigits, hnumber⟩ := digits_toDigits n.natAbs
  rw [number?, toList_toString, List.takeWhile_append_of_pos hin, List.dropWhile_append_of_pos hin,
    hends.1, hends.2, List.append_nil, hwhole]
  simp only [sign_signOf, hdigits, hnumber]
  by_cases hn : n < 0
  · simp only [hn, decide_true, if_true]
    rw [show -(n.natAbs : Int) = n by omega]
    rfl
  · simp only [hn, decide_false, Bool.false_eq_true, if_false]
    rw [show (n.natAbs : Int) = n by omega]

/-- An integer is not written as nothing. -/
theorem exists_toString_eq_cons (n : Int) : ∃ c s, (toString n).toList = c :: s ∧ IsNumeric c := by
  rw [toList_toString]
  cases hn : signOf n ++ Nat.toDigits 10 n.natAbs with
  | nil => exact absurd (List.append_eq_nil_iff.mp hn).2 Nat.toDigits_ne_nil
  | cons c s =>
    have hc : c ∈ signOf n ++ Nat.toDigits 10 n.natAbs := by simp [hn]
    exact ⟨c, s, rfl, isNumeric_of_mem c hc⟩

/-! ### Values -/

/-- The text of a value starts with neither a blank nor a bracket that closes. -/
theorem exists_print_eq_cons {v : Json} (h : v.IsExact) (style : Style) :
    ∃ c s, print style v = c :: s ∧ isSpace c = false ∧ c ≠ ']' := by
  -- Each kind of value begins with a character of its own.
  cases h with
  | null => exact ⟨'n', _, rfl, by decide⟩
  | bool b =>
    cases b with
    | true => exact ⟨'t', _, rfl, by decide⟩
    | false => exact ⟨'f', _, rfl, by decide⟩
  | int n =>
    obtain ⟨c, s, hcs, hc⟩ := exists_toString_eq_cons n
    exact ⟨c, s, hcs, hc.isSpace, hc.ne (by decide) (by decide)⟩
  | text s => exact ⟨'"', _, rfl, by decide⟩
  | list _ => exact ⟨'[', _, by rw [print], by decide⟩
  | object _ => exact ⟨'{', _, by rw [print], by decide⟩

/-- A value is read from its text with enough fuel, in front of what ends a number. -/
def ReadsBack (style : Style) (v : Json) : Prop :=
  ∀ (fuel : Nat) (rest : List Char), 2 * (print style v).length ≤ fuel → EndsNumber rest →
    value? (fuel + 1) (print style v ++ rest) = some (v, rest)

/-- Integers are read back. -/
theorem readsBack_int (style : Style) (n : Int) : ReadsBack style (.int n) := by
  intro fuel rest hfuel hrest
  obtain ⟨c, s, hcs, hc⟩ := exists_toString_eq_cons n
  have hread := number?_toString n hrest
  rw [hcs, List.cons_append] at hread
  rw [print, hcs, List.cons_append, value?, skip_cons hc.isSpace]
  simp [hc.ne, hread]

/-- Texts are read back. -/
theorem readsBack_text (style : Style) (s : String) : ReadsBack style (.text s) := by
  intro fuel rest hfuel _
  obtain ⟨body, hbody, hread⟩ := chars?_quoteChars style.asciiOnly s rest
  rw [print, hbody, value?, skip_cons (by decide)]
  simp [hread]

/-- The items of a list are read up to its closing bracket. -/
theorem items?_printItems (hstyle : style.IsProper) {items : List Json} (hne : items ≠ [])
    (h : ∀ v ∈ items, ReadsBack style v) (hfuel : 2 * (printItems style items).length + 1 < fuel) :
    items? fuel (printItems style items ++ ']' :: rest) = some (items, rest) := by
  obtain ⟨blanks, hsep, hblanks⟩ := hstyle.item
  induction items generalizing fuel with
  | nil => exact absurd rfl hne
  | cons v items ih =>
    -- One unit of fuel goes with the item, and its value is read with one of those that are left.
    obtain ⟨fuel, rfl⟩ : ∃ n, fuel = n + 2 := ⟨fuel - 2, by omega⟩
    cases items with
    | nil =>
      rw [printItems] at hfuel ⊢
      have hv := h v (by simp) fuel (']' :: rest) (by omega) (endsNumber_cons (by decide))
      rw [items?, hv]
      rfl
    | cons w items =>
      have hitems (hlen : 2 * (printItems style (w :: items)).length + 1 < fuel + 1) :
          items? (fuel + 1) (printItems style (w :: items) ++ ']' :: rest) =
            some (w :: items, rest) :=
        ih (by simp) (fun u hu => h u (List.mem_cons_of_mem v hu)) hlen
      rw [printItems, hsep] at hfuel ⊢
      simp only [List.length_append, List.length_cons] at hfuel
      have hv := h v (by simp) fuel
        (',' :: (blanks ++ (printItems style (w :: items) ++ ']' :: rest))) (by omega)
        (endsNumber_cons (by decide))
      simp only [List.append_assoc, List.cons_append]
      rw [items?, hv]
      simp only [skip_cons (show isSpace ',' = false by decide)]
      rw [items?_blanks hblanks, hitems (by omega)]
      rfl

/-- Lists are read back if their items are. -/
theorem readsBack_list (hstyle : style.IsProper) {items : List Json}
    (hexact : ∀ v ∈ items, v.IsExact)
    (h : ∀ v ∈ items, ReadsBack style v) : ReadsBack style (.list items) := by
  intro fuel rest hfuel _
  cases items with
  | nil => rfl
  | cons v items =>
    rw [print] at hfuel ⊢
    simp only [List.length_cons, List.length_append] at hfuel
    have hitems : items? fuel (printItems style (v :: items) ++ ']' :: rest) =
        some (v :: items, rest) :=
      items?_printItems hstyle (List.cons_ne_nil v items) h (by omega)
    -- The first item is no closing bracket, so the list is not taken for an empty one.
    obtain ⟨c, s, hcs, hspace, hclose⟩ : ∃ c s, printItems style (v :: items) = c :: s
        ∧ isSpace c = false ∧ c ≠ ']' := by
      obtain ⟨c, s, hcs, hc⟩ := exists_print_eq_cons (hexact v (by simp)) style
      cases items with
      | nil => exact ⟨c, s, by rw [printItems, hcs], hc⟩
      | cons w items =>
        exact ⟨c, _, by rw [printItems, hcs, List.cons_append, List.cons_append], hc⟩
    rw [hcs, List.cons_append] at hitems
    rw [hcs]
    simp only [List.cons_append, List.append_assoc, List.nil_append]
    rw [value?, skip_cons (by decide)]
    simp only [skip_cons hspace]
    simp [hclose, hitems]

/-- The members of an object are read up to its closing brace. -/
theorem members?_printMembers (hstyle : style.IsProper) {members : List (String × Json)}
    (hne : members ≠ []) (h : ∀ m ∈ members, ReadsBack style m.2)
    (hfuel : 2 * (printMembers style members).length + 1 < fuel) :
    members? fuel (printMembers style members ++ '}' :: rest) = some (members, rest) := by
  obtain ⟨blanks, hsep, hblanks⟩ := hstyle.item
  obtain ⟨gap, hkey, hgap⟩ := hstyle.key
  -- By the members: the last is followed by the brace, any other by a separator.
  induction members generalizing fuel with
  | nil => exact absurd rfl hne
  | cons m members ih =>
    obtain ⟨name, v⟩ := m
    obtain ⟨fuel, rfl⟩ : ∃ n, fuel = n + 2 := ⟨fuel - 2, by omega⟩
    cases members with
    | nil =>
      rw [printMembers, hkey] at hfuel ⊢
      simp only [List.length_append, List.length_cons] at hfuel
      have hread : ReadsBack style v := h (name, v) (by simp)
      have hv := hread fuel ('}' :: rest) (by omega) (endsNumber_cons (by decide))
      simp only [List.append_assoc, List.cons_append]
      obtain ⟨body, hbody, hname⟩ := chars?_quoteChars style.asciiOnly name
        (':' :: (gap ++ (print style v ++ '}' :: rest)))
      rw [hbody, members?, skip_cons (by decide)]
      simp only [hname, skip_cons (show isSpace ':' = false by decide)]
      rw [value?_blanks hgap, hv]
      simp only [skip_cons (show isSpace '}' = false by decide), String.ofList_toList]
    | cons n members =>
      have hmembers (hlen : 2 * (printMembers style (n :: members)).length + 1 < fuel + 1) :
          members? (fuel + 1) (printMembers style (n :: members) ++ '}' :: rest) =
            some (n :: members, rest) :=
        ih (by simp) (fun u hu => h u (List.mem_cons_of_mem _ hu)) hlen
      rw [printMembers, hkey, hsep] at hfuel ⊢
      simp only [List.length_append, List.length_cons] at hfuel
      have hread : ReadsBack style v := h (name, v) (by simp)
      have hv := hread fuel
        (',' :: (blanks ++ (printMembers style (n :: members) ++ '}' :: rest))) (by omega)
        (endsNumber_cons (by decide))
      simp only [List.append_assoc, List.cons_append]
      obtain ⟨body, hbody, hname⟩ := chars?_quoteChars style.asciiOnly name (':' :: (gap
        ++ (print style v ++
          ',' :: (blanks ++ (printMembers style (n :: members) ++ '}' :: rest)))))
      rw [hbody, members?, skip_cons (by decide)]
      simp only [hname, skip_cons (show isSpace ':' = false by decide)]
      rw [value?_blanks hgap, hv]
      simp only [skip_cons (show isSpace ',' = false by decide), String.ofList_toList]
      rw [members?_blanks hblanks, hmembers (by omega)]
      rfl

/-- Objects are read back if the values of their members are. -/
theorem readsBack_object (hstyle : style.IsProper) {members : List (String × Json)}
    (h : ∀ m ∈ members, ReadsBack style m.2) : ReadsBack style (.object members) := by
  intro fuel rest hfuel _
  cases members with
  | nil => rfl
  | cons m members =>
    rw [print] at hfuel ⊢
    simp only [List.length_cons, List.length_append] at hfuel
    have hmembers : members? fuel (printMembers style (m :: members) ++ '}' :: rest) =
        some (m :: members, rest) :=
      members?_printMembers hstyle (List.cons_ne_nil m members) h (by omega)
    -- The first name begins with a quote, so the reader sees that the object is not empty.
    obtain ⟨s, hs⟩ : ∃ s, printMembers style (m :: members) = '"' :: s := by
      cases members with
      | nil => exact ⟨_, by rw [printMembers, quoteChars]; rfl⟩
      | cons n members => exact ⟨_, by rw [printMembers, quoteChars]; rfl⟩
    rw [hs, List.cons_append] at hmembers
    rw [hs]
    simp only [List.cons_append, List.append_assoc, List.nil_append]
    rw [value?, skip_cons (by decide)]
    simp only [skip_cons (show isSpace '"' = false by decide)]
    simp [hmembers]

/-- A value without floating-point numbers is read back, by induction on how it is built. -/
theorem readsBack_of_isExact (hstyle : style.IsProper) {v : Json} (h : v.IsExact) :
    ReadsBack style v := by
  -- By the value: lists and objects are read back as their parts are.
  induction h with
  | null =>
    intro fuel rest hfuel _
    rfl
  | bool b =>
    intro fuel rest hfuel _
    cases b with
    | true => rfl
    | false => rfl
  | int n => exact readsBack_int style n
  | text s => exact readsBack_text style s
  | list hexact ih => exact readsBack_list hstyle hexact ih
  | object _ ih => exact readsBack_object hstyle ih

end Reader

/-! ### Only ASCII -/

/-- A text of ASCII characters. -/
def IsAscii (s : List Char) : Prop := ∀ c ∈ s, c.toNat < 0x80

/-- A text is ASCII if its characters are. -/
theorem isAscii_cons {c : Char} {s : List Char} : IsAscii (c :: s) ↔ c.toNat < 0x80 ∧ IsAscii s :=
  List.forall_mem_cons

/-- Two texts are ASCII together if each is. -/
theorem isAscii_append {s t : List Char} : IsAscii (s ++ t) ↔ IsAscii s ∧ IsAscii t :=
  List.forall_mem_append

/-- Escapes are ASCII. -/
theorem isAscii_escapeUnit (n : Nat) : IsAscii (escapeUnit n) := by
  rw [escapeUnit, isAscii_cons, isAscii_cons]
  exact ⟨by decide, by decide, Text.Digit.forall_mem_padded Text.Digit.toNat_hexDigit⟩

/-- Where characters beyond ASCII are escaped, none is left. -/
theorem isAscii_of_written {c : Char} {s : List Char} (h : Reader.Written true c s) :
    IsAscii s := by
  cases h with
  | letter d hascii _ => simp [IsAscii, hascii]
  | plain _ _ _ hascii => simp [IsAscii, hascii]
  | unit _ => exact isAscii_escapeUnit _
  | pair _ => exact isAscii_append.mpr ⟨isAscii_escapeUnit _, isAscii_escapeUnit _⟩

/-- What is quoted for ASCII is ASCII. -/
theorem isAscii_quoteChars (s : List Char) : IsAscii (quoteChars true s) := by
  have hbody : IsAscii (s.flatMap (escapeChar true)) := by
    intro d hd
    obtain ⟨c, -, hc⟩ := List.mem_flatMap.mp hd
    exact isAscii_of_written (Reader.written_escapeChar true c) d hc
  rw [quoteChars, isAscii_cons, isAscii_append]
  exact ⟨by decide, hbody, by simp [IsAscii]⟩

/-- Items that are ASCII are ASCII with their separators. -/
theorem isAscii_printItems {items : List Json} (h : ∀ v ∈ items, IsAscii (print spaced v)) :
    IsAscii (printItems spaced items) := by
  induction items with
  | nil => simp [printItems, IsAscii]
  | cons v items ih =>
    have hv := h v (by simp)
    cases items with
    | nil => rwa [printItems]
    | cons w items =>
      have hitems := ih fun u hu => h u (List.mem_cons_of_mem v hu)
      rw [printItems, isAscii_append, isAscii_append]
      exact ⟨⟨hv, by simp [spaced, IsAscii]⟩, hitems⟩

/-- Members that are ASCII are ASCII with their separators. -/
theorem isAscii_printMembers {members : List (String × Json)}
    (h : ∀ m ∈ members, IsAscii (print spaced m.2)) : IsAscii (printMembers spaced members) := by
  have hkey : IsAscii spaced.keySeparator.toList := by simp [spaced, IsAscii]
  -- As they are printed: the last without a separator, any other with one.
  induction members with
  | nil => simp [printMembers, IsAscii]
  | cons m members ih =>
    have hv : IsAscii (print spaced m.2) := h m (by simp)
    have hname := isAscii_quoteChars m.1.toList
    cases members with
    | nil =>
      rw [printMembers, isAscii_append, isAscii_append]
      exact ⟨⟨hname, hkey⟩, hv⟩
    | cons n members =>
      have hmembers := ih fun u hu => h u (List.mem_cons_of_mem m hu)
      rw [printMembers, isAscii_append, isAscii_append, isAscii_append, isAscii_append]
      exact ⟨⟨⟨⟨hname, hkey⟩, hv⟩, by simp [spaced, IsAscii]⟩, hmembers⟩

/-- The spaced style is ASCII throughout. -/
theorem isAscii_print_spaced {v : Json} (h : v.IsExact) : IsAscii (print spaced v) := by
  -- By the value; only texts have other characters, and these are escaped.
  induction h with
  | null => simp [print, IsAscii]
  | bool b => cases b <;> simp [print, IsAscii]
  | int n =>
    intro c hc
    rw [print, toList_toString] at hc
    cases Reader.isNumeric_of_mem c hc with
    | inl hminus => rw [hminus]; decide
    | inr hdigit =>
      simp only [Char.isDigit, Bool.and_eq_true, decide_eq_true_eq] at hdigit
      exact Nat.lt_of_le_of_lt (UInt32.le_iff_toNat_le.mp hdigit.2) (by decide)
  | text s => exact isAscii_quoteChars s.toList
  | list _ ih =>
    rw [print, isAscii_cons, isAscii_append]
    exact ⟨by decide, isAscii_printItems ih, by simp [IsAscii]⟩
  | object _ ih =>
    rw [print, isAscii_cons, isAscii_append]
    exact ⟨by decide, isAscii_printMembers ih, by simp [IsAscii]⟩

/-- What is printed in a proper style is read back as the same value, if it has no floating-point
numbers. -/
theorem ofString?_render (hstyle : style.IsProper) {v : Json} (h : v.IsExact) :
    ofString? (v.render style) = some v := by
  have hread := Reader.readsBack_of_isExact hstyle h (2 * (print style v).length + 1) []
    (by omega) endsNumber_nil
  rw [List.append_nil] at hread
  rw [ofString?, render, String.toList_ofList, Reader.parse?, hread]
  rfl

end Json
end Slipway
