/-!
# `Slipway.Text.Blank`: white space

Two classes: the six blanks of ASCII text, and the white space of Unicode text, which adds the
four separators U+001C to U+001F, the next-line control and the spaces of other scripts.
-/

set_option autoImplicit false

namespace Slipway.Text

/-- White space of ASCII text: tab, line feed, vertical tab, form feed, carriage return, space. -/
def isAsciiBlank (c : Char) : Bool :=
  (9 ≤ c.toNat && c.toNat ≤ 13) || c.toNat == 32

/-- White space above U+007F. -/
def wideBlanks : List Nat :=
  [0x85, 0xA0, 0x1680, 0x2000, 0x2001, 0x2002, 0x2003, 0x2004, 0x2005, 0x2006, 0x2007, 0x2008,
   0x2009, 0x200A, 0x2028, 0x2029, 0x202F, 0x205F, 0x3000]

/-- White space of Unicode text. -/
def isBlank (c : Char) : Bool :=
  isAsciiBlank c || (0x1C ≤ c.toNat && c.toNat ≤ 0x1F) || wideBlanks.contains c.toNat

/-- White space of Unicode text without the four separators. -/
def isPlainBlank (c : Char) : Bool :=
  isAsciiBlank c || wideBlanks.contains c.toNat

/-- A text without the characters of a class at either end. -/
def trim (p : Char → Bool) (s : List Char) : List Char :=
  ((s.dropWhile p).reverse.dropWhile p).reverse

end Slipway.Text
