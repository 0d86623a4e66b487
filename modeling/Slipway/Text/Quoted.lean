import Slipway.Text.Digit
import Slipway.Text.Printable

/-!
# `Slipway.Text.Quoted`: texts quoted for a message

A quoted text shows every text unambiguously on one line. It stands in single quotes, or in double
quotes if it holds a single quote and no double one; the quote in use, the backslash and every
unprintable character are escaped, a character by the shortest of `\xhh`, `\uhhhh`, `\Uhhhhhhhh`
that can hold it.
-/

set_option autoImplicit false

namespace Slipway.Text.Quoted

open Slipway.Text.Digit (padded)
open Slipway.Text.Printable (isPrintable)

/-- The quote that a text is put in. -/
def quoteFor (s : List Char) : Char :=
  if s.contains '\'' && !s.contains '"' then '"' else '\''

/-- The written form of one character between quotes `q`. -/
def escape (q c : Char) : List Char :=
  if c = q || c = '\\' then ['\\', c]
  else if c = '\t' then ['\\', 't']
  else if c = '\n' then ['\\', 'n']
  else if c = '\r' then ['\\', 'r']
  else if isPrintable c then [c]
  else if c.toNat < 0x100 then '\\' :: 'x' :: padded 16 2 c.toNat
  else if c.toNat < 0x10000 then '\\' :: 'u' :: padded 16 4 c.toNat
  else '\\' :: 'U' :: padded 16 8 c.toNat

/-- A text between quotes. -/
def encode (s : List Char) : List Char :=
  let q := quoteFor s
  q :: (s.flatMap (escape q) ++ [q])

/-- A quoted text as a string. -/
def ofString (s : String) : String :=
  String.ofList (encode s.toList)

/-- Quoted texts in square brackets. -/
def ofStrings (xs : List String) : String :=
  "[" ++ ", ".intercalate (xs.map ofString) ++ "]"

end Slipway.Text.Quoted
