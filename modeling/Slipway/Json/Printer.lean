import Slipway.Binary64.Shortest
import Slipway.Json.Basic

/-!
# `Slipway.Json.Printer`: JSON values as text

A style says what stands between items and after keys, and whether characters beyond ASCII are
escaped. Two styles are used: `compact`, which leaves them as they are, and `spaced`, which escapes
everything outside the printable ASCII range, a code point above U+FFFF as two UTF-16 units.
-/

set_option autoImplicit false

namespace Slipway.Json

/-- How a value is laid out. -/
structure Style where
  itemSeparator : String
  keySeparator : String
  asciiOnly : Bool
deriving DecidableEq, Repr

/-- No spaces; only quotes, backslashes and controls are escaped. -/
def compact : Style := ⟨",", ":", false⟩

/-- A space after commas and colons; the text is ASCII. -/
def spaced : Style := ⟨", ", ": ", true⟩

/-- A UTF-16 unit as an escape. -/
def escapeUnit (n : Nat) : List Char := '\\' :: 'u' :: Text.Digit.padded 16 4 n

/-- The written form of one character of a text. -/
def escapeChar (asciiOnly : Bool) (c : Char) : List Char :=
  if c = '"' then ['\\', '"']
  else if c = '\\' then ['\\', '\\']
  else if c = '\n' then ['\\', 'n']
  else if c = '\r' then ['\\', 'r']
  else if c = '\t' then ['\\', 't']
  else if c.toNat = 8 then ['\\', 'b']
  else if c.toNat = 12 then ['\\', 'f']
  else if c.toNat < 0x20 then escapeUnit c.toNat
  else if !asciiOnly || c.toNat < 0x7F then [c]
  else if c.toNat < 0x10000 then escapeUnit c.toNat
  else
    let n := c.toNat - 0x10000
    escapeUnit (0xD800 + n / 0x400) ++ escapeUnit (0xDC00 + n % 0x400)

/-- A text between quotes. -/
def quoteChars (asciiOnly : Bool) (s : List Char) : List Char :=
  '"' :: (s.flatMap (escapeChar asciiOnly) ++ ['"'])

/-- Numbers are laid out plainly, and the three that have no JSON text have words. -/
def numbers : Binary64.Shortest.Layout := { Binary64.Shortest.plain with
  infinity := "Infinity", notANumber := "NaN" }

mutual

/-- The text of a value. -/
def print (style : Style) : Json → List Char
  | null => "null".toList
  | bool b => (if b then "true" else "false").toList
  | int n => (toString n).toList
  | float x => (Binary64.Shortest.text numbers x).toList
  | text s => quoteChars style.asciiOnly s.toList
  | list items => '[' :: (printItems style items ++ [']'])
  | object members => '{' :: (printMembers style members ++ ['}'])

/-- The texts of the items of a list, separated. -/
def printItems (style : Style) : List Json → List Char
  | [] => []
  | [v] => print style v
  | v :: w :: rest => print style v ++ style.itemSeparator.toList ++ printItems style (w :: rest)

/-- The texts of the members of an object, separated. -/
def printMembers (style : Style) : List (String × Json) → List Char
  | [] => []
  | [(k, v)] => quoteChars style.asciiOnly k.toList ++ style.keySeparator.toList ++ print style v
  | (k, v) :: m :: rest =>
    quoteChars style.asciiOnly k.toList ++ style.keySeparator.toList ++ print style v
      ++ style.itemSeparator.toList ++ printMembers style (m :: rest)

end

/-- The text of a value as a string. -/
def render (style : Style) (v : Json) : String := String.ofList (print style v)

end Slipway.Json
