import Slipway.Text.Blank

/-!
# `Slipway.Text.Shell`: words for a POSIX shell, and their reading

`quote` writes a text as one shell word. `split?` reads a command line back into words: single
quotes keep everything up to the next one, double quotes keep everything but a backslash before a
quote or a backslash, a backslash outside quotes keeps one character, and blanks outside quotes
separate words.
-/

set_option autoImplicit false

namespace Slipway.Text.Shell

/-- The characters that need no quotes: ASCII letters and digits, and these signs. -/
def isSafe (c : Char) : Bool :=
  c.isAlphanum || "_@%+=:,./-".toList.contains c

/-- A single quote inside single quotes is written outside them, in double quotes. -/
def quoteChar (c : Char) : List Char :=
  if c = '\'' then "'\"'\"'".toList else [c]

/-- A text as one word of a command line. -/
def quote (s : List Char) : List Char :=
  if s.isEmpty then ['\'', '\'']
  else if s.all isSafe then s
  else '\'' :: (s.flatMap quoteChar ++ ['\''])

/-- A string as one word of a command line. -/
def quoteString (s : String) : String := String.ofList (quote s.toList)

/-- Where a reader of words stands. -/
inductive Mode where
  /-- Between words. -/
  | outside
  /-- Inside a word, outside quotes. -/
  | word
  | singleQuoted
  | doubleQuoted
deriving DecidableEq, Repr

/-- Blanks that separate words. -/
def isSeparator (c : Char) : Bool := c == ' ' || c == '\t' || c == '\n' || c == '\r'

/-- Reads words; the characters of the current one come reversed. `none` if a quote stays open or
nothing follows a backslash. -/
def splitFrom : Mode → List Char → List Char → Option (List (List Char))
  | .outside, _, [] => some []
  | .word, acc, [] => some [acc.reverse]
  | .singleQuoted, _, [] => none
  | .doubleQuoted, _, [] => none
  | .singleQuoted, acc, c :: rest =>
    if c = '\'' then splitFrom .word acc rest else splitFrom .singleQuoted (c :: acc) rest
  | .doubleQuoted, _, ['\\'] => none
  | .doubleQuoted, acc, '\\' :: d :: rest =>
    if d = '"' || d = '\\' then splitFrom .doubleQuoted (d :: acc) rest
    else splitFrom .doubleQuoted (d :: '\\' :: acc) rest
  | .doubleQuoted, acc, c :: rest =>
    if c = '"' then splitFrom .word acc rest else splitFrom .doubleQuoted (c :: acc) rest
  | .outside, _, ['\\'] => none
  | .word, _, ['\\'] => none
  | .outside, acc, '\\' :: d :: rest => splitFrom .word (d :: acc) rest
  | .word, acc, '\\' :: d :: rest => splitFrom .word (d :: acc) rest
  | .outside, acc, c :: rest =>
    if isSeparator c then splitFrom .outside [] rest
    else if c = '\'' then splitFrom .singleQuoted acc rest
    else if c = '"' then splitFrom .doubleQuoted acc rest
    else splitFrom .word (c :: acc) rest
  | .word, acc, c :: rest =>
    if isSeparator c then (splitFrom .outside [] rest).map (acc.reverse :: ·)
    else if c = '\'' then splitFrom .singleQuoted acc rest
    else if c = '"' then splitFrom .doubleQuoted acc rest
    else splitFrom .word (c :: acc) rest

/-- The words of a command line. -/
def split? (s : List Char) : Option (List (List Char)) := splitFrom .outside [] s

/-- The words of a command line, as strings. -/
def splitString? (s : String) : Option (List String) :=
  (split? s.toList).map fun words => words.map String.ofList

end Slipway.Text.Shell
