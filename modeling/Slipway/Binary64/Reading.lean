import Slipway.Binary64.Basic
import Slipway.Text.Blank
import Slipway.Text.Digit

/-!
# `Slipway.Binary64.Reading`: decimal texts read as numbers

A decimal text is an optional sign followed by a word for infinity or for what is no number, or by
digits with at most one point among them, at least one digit in all, and an optional exponent. A
literal may have white space around it, and digits of any script.
-/

set_option autoImplicit false

namespace Slipway.Binary64.Reading

/-- An optional sign at the front, and what follows. -/
def sign : List Char → Bool × List Char
  | '-' :: rest => (true, rest)
  | '+' :: rest => (false, rest)
  | rest => (false, rest)

/-- The digits `0` to `9` at the front, by value, and what follows. -/
def digits (s : List Char) : List Nat × List Char :=
  ((s.takeWhile Char.isDigit).map fun c => c.toNat - '0'.toNat, s.dropWhile Char.isDigit)

/-- The exponent at the front: `some 0` if there is none, `none` if it is no number. What follows it
must be nothing. -/
def exponent? : List Char → Option Int
  | [] => some 0
  | c :: rest =>
    if c = 'e' || c = 'E' then
      let s := sign rest
      match digits s.2 with
      | ([], _) => none
      | (ds, []) =>
        let n : Int := Text.Digit.number 10 ds
        some (if s.1 then -n else n)
      | _ => none
    else none

/-- An unsigned decimal without words. -/
def magnitude? (negative : Bool) (s : List Char) : Option Binary64 :=
  let whole := digits s
  let part : List Nat × List Char := match whole.2 with
    | '.' :: rest => digits rest
    | rest => ([], rest)
  if whole.1.isEmpty && part.1.isEmpty then none
  else (exponent? part.2).map fun e =>
    ofDecimal negative (Text.Digit.number 10 (whole.1 ++ part.1)) (e - part.1.length)

/-- The number that a decimal text writes. Words are read in either case. -/
def decimal? (s : List Char) : Option Binary64 :=
  let t := sign s
  let word := t.2.map Char.toLower
  if word = "inf".toList || word = "infinity".toList then some (.infinite t.1)
  else if word = "nan".toList then some .nan
  else magnitude? t.1 t.2

/-- A digit of any script as a digit `0` to `9`. -/
def asciiDigit (c : Char) : Char :=
  match Text.Digit.valueOf? c with
  | some n => Text.Digit.hexDigit n
  | none => c

/-- The number that a literal writes. -/
def literal? (s : List Char) : Option Binary64 :=
  decimal? ((Text.trim Text.isPlainBlank s).map asciiDigit)

end Slipway.Binary64.Reading
