import Slipway.Text.Blank
import Slipway.Text.Digit

/-!
# `Slipway.Text.Integer`: texts read as integers

Three readers. `literal` is generous in its characters: digits of any script, blanks around, a sign,
single underscores between digits; it refuses more than 4300 digits, before it looks at what
follows them. `inBase?` reads the same in a base other than ten, which a mark may name. `plain?`
wants ASCII digits, and allows a tail of a point and zeros.

The limit on digits also holds the other way: an integer of more of them is not written into a text
(`isWritable`).
-/

set_option autoImplicit false

namespace Slipway.Text.Integer

/-- The most digits that a literal may have. -/
def maxDigits : Nat := 4300

/-- Whether an integer has no more digits than a literal may have. -/
def isWritable (n : Int) : Bool := (Nat.toDigits 10 n.natAbs).length ≤ maxDigits

/-- Why a text is no integer literal. -/
inductive Fault where
  | notALiteral
  | tooManyDigits (count : Nat)
deriving DecidableEq, Repr

/-- Digit values with single underscores between them, and what follows; `none` if an underscore
has no digit on one side, or if there is no digit. `afterDigit` says what came before. -/
def digitRun (valueOf? : Char → Option Nat) :
    Bool → List Char → Option (List Nat × List Char)
  | afterDigit, [] => if afterDigit then some ([], []) else none
  | afterDigit, c :: rest =>
    match valueOf? c with
    | some d => (digitRun valueOf? true rest).map fun r => (d :: r.1, r.2)
    | none =>
      if c = '_' then if afterDigit then digitRun valueOf? false rest else none
      else if afterDigit then some ([], c :: rest) else none

/-- A sign at the front, and what follows. -/
def sign : List Char → Bool × List Char
  | '-' :: rest => (true, rest)
  | '+' :: rest => (false, rest)
  | rest => (false, rest)

/-- A number with its sign. -/
def signed (negative : Bool) (n : Nat) : Int := if negative then -(n : Int) else n

/-- The integer that a literal writes. The white space of Unicode may stand around it, but none of
the four separators. -/
def literal (s : List Char) : Except Fault Int :=
  let t := sign (s.dropWhile isPlainBlank)
  match digitRun Digit.valueOf? false t.2 with
  | none => .error .notALiteral
  | some (ds, rest) =>
    if maxDigits < ds.length then .error (.tooManyDigits ds.length)
    else if (rest.dropWhile isPlainBlank).isEmpty then .ok (signed t.1 (Digit.number 10 ds))
    else .error .notALiteral

/-- The value of a digit or a letter, if it is below a base. -/
def digitBelow? (base : Nat) (c : Char) : Option Nat :=
  ((Digit.valueOf? c).or (Digit.hexValue? c)).filter (· < base)

/-- A text without the mark of a base: a zero, a letter in either case, and perhaps an underscore.
-/
def unmarked (mark : Char) : List Char → List Char
  | '0' :: c :: '_' :: rest => if c.toLower = mark then rest else '0' :: c :: '_' :: rest
  | '0' :: c :: rest => if c.toLower = mark then rest else '0' :: c :: rest
  | rest => rest

/-- The integer that a text writes in a base: blanks around, a sign, perhaps the mark of the base,
and digits with single underscores between them. -/
def inBase? (base : Nat) (mark : Char) (s : List Char) : Option Int :=
  let t := sign (trim isPlainBlank s)
  match digitRun (digitBelow? base) false (unmarked mark t.2) with
  | some (ds, []) => some (signed t.1 (Digit.number base ds))
  | _ => none

/-- The integer that a plain text writes: blanks around, a sign, ASCII digits with single
underscores between them, and a tail of a point and at least one zero. -/
def plain? (s : List Char) : Option Int :=
  let t := sign (trim isPlainBlank s)
  match digitRun Digit.asciiValue? false t.2 with
  | none => none
  | some (ds, rest) =>
    let tail := match rest with
      | [] => true
      | '.' :: zeros => !zeros.isEmpty && zeros.all (· == '0')
      | _ => false
    if tail then some (signed t.1 (Digit.number 10 ds)) else none

end Slipway.Text.Integer
