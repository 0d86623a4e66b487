/-!
# `Slipway.Yaml.Cursor`: places in a YAML text

A cursor is a place in a text: what follows it, and its line and column. Lines end at a line feed,
at the next-line control and at the two separators of Unicode; a text has no carriage returns, for
they are unified before. The byte order mark takes no column. -/

set_option autoImplicit false

namespace Slipway.Yaml

/-- Whether a character ends a line. -/
def isBreak (c : Char) : Bool :=
  c == '\n' || c.toNat == 0x85 || c.toNat == 0x2028 || c.toNat == 0x2029

/-- Whether a character is a space or a tab. -/
def isInset (c : Char) : Bool := c == ' ' || c == '\t'

/-- Whether a line ends here. -/
def endsLine : Option Char → Bool
  | none => true
  | some c => isBreak c

/-- Whether a line or a word before a space ends here. -/
def endsField : Option Char → Bool
  | none => true
  | some c => isBreak c || c == ' '

/-- Whether a line or a word before a space or a tab ends here. -/
def endsWord : Option Char → Bool
  | none => true
  | some c => isBreak c || isInset c

/-- Whether a character may stand in the name of an anchor or of a tag. -/
def inName (c : Char) : Bool := c.isAlphanum || c == '-' || c == '_'

/-- The break that a character stands for: all breaks are line feeds but the separators. -/
def breakOf (c : Char) : Char := if c.toNat = 0x85 then '\n' else c

/-- A place in a text. -/
structure Cursor where
  rest : List Char
  index : Nat
  line : Nat
  column : Nat
deriving Repr

namespace Cursor

/-- The front of a text. -/
def start (text : List Char) : Cursor := ⟨text, 0, 0, 0⟩

/-- The next character. -/
def head? (c : Cursor) : Option Char := c.rest.head?

/-- The character after the next ones. -/
def get? (c : Cursor) (n : Nat) : Option Char := c.rest[n]?

/-- Whether a character comes next. -/
def sees (c : Cursor) (x : Char) : Bool := c.head? == some x

/-- The place after the next character. -/
def next (c : Cursor) : Cursor :=
  match c.rest with
  | [] => c
  | x :: rest =>
    if isBreak x then ⟨rest, c.index + 1, c.line + 1, 0⟩
    else ⟨rest, c.index + 1, c.line, if x.toNat = 0xFEFF then c.column else c.column + 1⟩

/-- The place after some characters. -/
def skip : Nat → Cursor → Cursor
  | 0, c => c
  | n + 1, c => skip n c.next

/-- The characters of a class that come next. -/
def run (p : Char → Bool) (c : Cursor) : List Char := c.rest.takeWhile p

/-- The place after the characters of a class. -/
def skipRun (p : Char → Bool) (c : Cursor) : Cursor := c.skip (c.run p).length

/-- The place after spaces. -/
def skipSpaces (c : Cursor) : Cursor := c.skipRun (· == ' ')

/-- The place after a comment, if one starts here. -/
def skipComment (c : Cursor) : Cursor :=
  if c.sees '#' then c.skipRun fun x => !isBreak x else c

/-- The break that comes next, and the place after it. -/
def break? (c : Cursor) : Option (Char × Cursor) :=
  match c.head? with
  | some x => if isBreak x then some (breakOf x, c.next) else none
  | none => none

/-- Whether three characters that stand alone come next. -/
def seesMark (mark : List Char) (c : Cursor) : Bool := mark.isPrefixOf c.rest && endsWord (c.get? 3)

/-- Whether a mark between documents comes next. -/
def seesDivider (c : Cursor) : Bool :=
  c.seesMark ['-', '-', '-'] || c.seesMark ['.', '.', '.']

end Cursor
end Slipway.Yaml
