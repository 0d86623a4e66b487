import Slipway.Proofs.Text.Digit
import Slipway.Text.Quoted

/-!
# `Slipway.Proofs.Text.Quoted`: a quoted text shows its text

No two texts are quoted alike (`ofString_inj`). The quote in front tells how a text was escaped.
Between the quotes the text can be read again: `first?` reads one character, as it is or by its
escape, and leaves the rest. It reads back every escape, whatever follows (`first?_escape`), so the
first character of a text and the rest are told by the escaped text (`first?_flatMap`), and by
induction the whole text is. -/

set_option autoImplicit false

namespace Slipway.Text.Quoted

open Slipway.Text.Digit (hexValue? hexValue?_hexDigit length_padded mapM_padded number padded)

/-! ### A reader -/

/-- The character with a code point of so many hexadecimal digits, and the rest. -/
def hex? (width : Nat) (s : List Char) : Option (Char × List Char) :=
  ((s.take width).mapM hexValue?).map fun values => (Char.ofNat (number 16 values), s.drop width)

/-- What a backslash stands for together with what follows it, and the rest. -/
def escaped? : List Char → Option (Char × List Char)
  | [] => none
  | 't' :: rest => some ('\t', rest)
  | 'n' :: rest => some ('\n', rest)
  | 'r' :: rest => some ('\r', rest)
  | 'x' :: rest => hex? 2 rest
  | 'u' :: rest => hex? 4 rest
  | 'U' :: rest => hex? 8 rest
  | c :: rest => some (c, rest)

/-- The first character of an escaped text, and the rest. -/
def first? : List Char → Option (Char × List Char)
  | [] => none
  | c :: rest => if c = '\\' then escaped? rest else some (c, rest)

/-! ### Escapes are read back -/

variable {q c : Char} {s t rest : List Char}

/-- A point that is filled up with zeros is read as its character. -/
theorem hex?_padded {width : Nat} (h : c.toNat < 16 ^ width) (rest : List Char) :
    hex? width (padded 16 width c.toNat ++ rest) = some (c, rest) := by
  obtain ⟨values, hread, hnumber⟩ := mapM_padded hexValue?_hexDigit h
  have hlength := length_padded 16 width c.toNat
  have htake : (padded 16 width c.toNat ++ rest).take width = padded 16 width c.toNat := by
    rw [List.take_append_of_le_length (Nat.le_of_eq hlength.symm), List.take_of_length_le
      (Nat.le_of_eq hlength)]
  have hdrop : (padded 16 width c.toNat ++ rest).drop width = rest := List.drop_left' hlength
  rw [hex?, htake, hdrop, hread, Option.map_some, hnumber, Char.ofNat_toNat]

/-- The quotes and the backslash stand for themselves after a backslash. -/
theorem escaped?_self (h : c = '\'' ∨ c = '"' ∨ c = '\\') :
    escaped? (c :: rest) = some (c, rest) := by
  rcases h with rfl | rfl | rfl <;> rfl

/-- What a character is escaped to is read as that character. -/
theorem first?_escape (hq : q = '\'' ∨ q = '"') (c : Char) (rest : List Char) :
    first? (escape q c ++ rest) = some (c, rest) := by
  have hbackslash : ∀ s, first? ('\\' :: s) = escaped? s := fun _ => rfl
  have hlast : c.toNat < 16 ^ 8 := c.val.toNat_lt
  unfold escape
  -- A quote or a backslash, three letters, what is kept, and three widths for all else.
  split
  case isTrue h =>
    simp only [Bool.or_eq_true, decide_eq_true_eq] at h
    refine (hbackslash _).trans (escaped?_self ?_)
    rcases h with rfl | rfl
    · exact hq.imp_right .inl
    · exact .inr (.inr rfl)
  case isFalse h =>
    split
    case isTrue h => rw [h]; rfl
    split
    case isTrue h => rw [h]; rfl
    split
    case isTrue h => rw [h]; rfl
    split
    case isTrue =>
      have hslash : c ≠ '\\' := by
        rintro rfl
        simp at h
      exact if_neg hslash
    split
    case isTrue h =>
      have hsmall : c.toNat < 16 ^ 2 := h
      exact (hbackslash _).trans (hex?_padded hsmall rest)
    split
    case isTrue h =>
      have hmiddle : c.toNat < 16 ^ 4 := h
      exact (hbackslash _).trans (hex?_padded hmiddle rest)
    case isFalse => exact (hbackslash _).trans (hex?_padded hlast rest)

/-- The first character of an escaped text is that of the text. -/
theorem first?_flatMap (hq : q = '\'' ∨ q = '"') (s : List Char) :
    first? (s.flatMap (escape q)) = s.head?.map fun c => (c, s.tail.flatMap (escape q)) := by
  cases s with
  | nil => rfl
  | cons c s => exact first?_escape hq c _

/-! ### Texts -/

/-- Texts that are escaped alike are the same. -/
theorem eq_of_flatMap_escape_eq (hq : q = '\'' ∨ q = '"')
    (h : s.flatMap (escape q) = t.flatMap (escape q)) : s = t := by
  have hfirst : ∀ {s t : List Char}, s.flatMap (escape q) = t.flatMap (escape q) →
      (s.head?.map fun c => (c, s.tail.flatMap (escape q)))
        = t.head?.map fun c => (c, t.tail.flatMap (escape q)) := by
    intro s t h
    rw [← first?_flatMap hq, h, first?_flatMap hq]
  -- By the characters: the first escape tells the first one, and what is left of it the rest.
  induction s generalizing t with
  | nil =>
    cases t with
    | nil => rfl
    | cons d t => cases hfirst h
  | cons c s ih =>
    cases t with
    | nil => cases hfirst h
    | cons d t =>
      obtain ⟨rfl, hrest⟩ := Prod.mk.inj (Option.some.inj (hfirst h))
      exact congrArg (c :: ·) (ih hrest)

/-- A text stands in single or in double quotes. -/
theorem quoteFor_cases (s : List Char) : quoteFor s = '\'' ∨ quoteFor s = '"' := by
  unfold quoteFor
  split
  · exact .inr rfl
  · exact .inl rfl

/-- No two texts are quoted alike. -/
theorem encode_inj : encode s = encode t ↔ s = t := by
  refine ⟨fun h => ?_, congrArg encode⟩
  obtain ⟨hquote, hbody⟩ := List.cons.inj h
  -- One quote is in front of both texts, so both are escaped for it, and it closes them.
  rw [hquote] at hbody
  exact eq_of_flatMap_escape_eq (quoteFor_cases t) (List.append_cancel_right hbody)

/-- No two texts are quoted alike. -/
theorem ofString_inj {s t : String} : ofString s = ofString t ↔ s = t := by
  rw [ofString, ofString, String.ofList_inj, encode_inj, String.toList_inj]

end Slipway.Text.Quoted
