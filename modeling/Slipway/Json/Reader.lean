import Slipway.Binary64.Reading
import Slipway.Json.Basic

/-!
# `Slipway.Json.Reader`: JSON texts read as values

A recursive reader over characters. Every call is given fuel, and the whole reader is given more
than the text has characters, so it never runs out: each value takes at least one.
-/

set_option autoImplicit false

namespace Slipway.Json.Reader

/-- The four blanks that may stand between tokens. -/
def isSpace (c : Char) : Bool := c == ' ' || c == '\n' || c == '\r' || c == '\t'

/-- A text without the blanks at its front. -/
def skip (s : List Char) : List Char := s.dropWhile isSpace

/-- The number that four hexadecimal digits write, and what follows. -/
def unit? : List Char → Option (Nat × List Char)
  | a :: b :: c :: d :: rest =>
    match [a, b, c, d].mapM Text.Digit.hexValue? with
    | some ds => some (Text.Digit.number 16 ds, rest)
    | none => none
  | _ => none

/-- The character of an escape, given what follows the backslash. Two units that form a pair are
one character. -/
def escaped? : List Char → Option (Char × List Char)
  | '"' :: rest => some ('"', rest)
  | '\\' :: rest => some ('\\', rest)
  | '/' :: rest => some ('/', rest)
  | 'b' :: rest => some (Char.ofNat 8, rest)
  | 'f' :: rest => some (Char.ofNat 12, rest)
  | 'n' :: rest => some ('\n', rest)
  | 'r' :: rest => some ('\r', rest)
  | 't' :: rest => some ('\t', rest)
  | 'u' :: rest =>
    match unit? rest with
    | none => none
    | some (n, rest₁) =>
      if 0xD800 ≤ n && n < 0xDC00 then
        match rest₁ with
        | '\\' :: 'u' :: rest₂ =>
          match unit? rest₂ with
          | some (m, rest₃) =>
            if 0xDC00 ≤ m && m < 0xE000 then
              some (Char.ofNat (0x10000 + (n - 0xD800) * 0x400 + (m - 0xDC00)), rest₃)
            else some (Char.ofNat 0xFFFD, rest₁)
          | none => none
        | _ => some (Char.ofNat 0xFFFD, rest₁)
      else if 0xDC00 ≤ n && n < 0xE000 then some (Char.ofNat 0xFFFD, rest₁)
      else some (Char.ofNat n, rest₁)
  | _ => none

/-- The characters of a text up to its closing quote, and what follows. The characters read so far
come reversed. -/
def chars? : Nat → List Char → List Char → Option (List Char × List Char)
  | 0, _, _ => none
  | _ + 1, _, [] => none
  | fuel + 1, acc, c :: rest =>
    if c = '"' then some (acc.reverse, rest)
    else if c = '\\' then
      match escaped? rest with
      | some (d, rest₁) => chars? fuel (d :: acc) rest₁
      | none => none
    else if c.toNat < 0x20 then none
    else chars? fuel (c :: acc) rest

/-- Whether a character may stand in a number. -/
def inNumber (c : Char) : Bool :=
  c.isDigit || c == '-' || c == '+' || c == '.' || c == 'e' || c == 'E'

/-- The number at the front, and what follows. -/
def number? (s : List Char) : Option (Json × List Char) :=
  let token := s.takeWhile inNumber
  let rest := s.dropWhile inNumber
  if token.any fun c => c == '.' || c == 'e' || c == 'E' then
    (Binary64.Reading.decimal? token).map fun x => (.float x, rest)
  else
    let t := Binary64.Reading.sign token
    match Binary64.Reading.digits t.2 with
    | ([], _) => none
    | (ds, []) =>
      let n : Int := Text.Digit.number 10 ds
      some (.int (if t.1 then -n else n), rest)
    | _ => none

mutual

/-- The value at the front, and what follows. -/
def value? : Nat → List Char → Option (Json × List Char)
  | 0, _ => none
  | fuel + 1, s =>
    match skip s with
    | [] => none
    | c :: rest =>
      if c = '"' then (chars? (rest.length + 1) [] rest).map fun r =>
        (.text (String.ofList r.1), r.2)
      else if c = '[' then
        match skip rest with
        | ']' :: after => some (.list [], after)
        | after => (items? fuel after).map fun r => (.list r.1, r.2)
      else if c = '{' then
        match skip rest with
        | '}' :: after => some (.object [], after)
        | after => (members? fuel after).map fun r => (.object r.1, r.2)
      else if c = 'n' then
        if rest.take 3 = ['u', 'l', 'l'] then some (.null, rest.drop 3) else none
      else if c = 't' then
        if rest.take 3 = ['r', 'u', 'e'] then some (.bool true, rest.drop 3) else none
      else if c = 'f' then
        if rest.take 4 = ['a', 'l', 's', 'e'] then some (.bool false, rest.drop 4) else none
      else number? (c :: rest)

/-- The items up to a closing bracket, and what follows. -/
def items? : Nat → List Char → Option (List Json × List Char)
  | 0, _ => none
  | fuel + 1, s =>
    match value? fuel s with
    | none => none
    | some (v, rest) =>
      match skip rest with
      | ']' :: after => some ([v], after)
      | ',' :: after => (items? fuel after).map fun r => (v :: r.1, r.2)
      | _ => none

/-- The members up to a closing brace, and what follows. -/
def members? : Nat → List Char → Option (List (String × Json) × List Char)
  | 0, _ => none
  | fuel + 1, s =>
    match skip s with
    | '"' :: rest =>
      match chars? (rest.length + 1) [] rest with
      | none => none
      | some (k, rest₁) =>
        match skip rest₁ with
        | ':' :: rest₂ =>
          match value? fuel rest₂ with
          | none => none
          | some (v, rest₃) =>
            match skip rest₃ with
            | '}' :: after => some ([(String.ofList k, v)], after)
            | ',' :: after =>
              (members? fuel after).map fun r => ((String.ofList k, v) :: r.1, r.2)
            | _ => none
        | _ => none
    | _ => none

end

/-- The value that a whole text writes. -/
def parse? (s : List Char) : Option Json :=
  match value? (2 * s.length + 2) s with
  | some (v, rest) => if (skip rest).isEmpty then some v else none
  | none => none

end Slipway.Json.Reader

namespace Slipway.Json

/-- The value that a string writes. -/
def ofString? (s : String) : Option Json := Reader.parse? s.toList

end Slipway.Json
