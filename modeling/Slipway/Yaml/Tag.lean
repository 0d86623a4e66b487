import Slipway.Text.Cut
import Slipway.Text.Digit

/-!
# `Slipway.Yaml.Tag`: what kind of value a node has

A tag names the kind of a node's value. A plain scalar without a tag has the kind that its form
shows: words for nothing and for truth, numbers in several notations, dates; everything else is a
text.
-/

set_option autoImplicit false

namespace Slipway.Yaml

/-- The kinds of values. -/
inductive Tag where
  | null
  | bool
  | int
  | float
  | timestamp
  | text
  | binary
  | sequence
  | mapping
  | set
  | orderedMapping
  | pairs
  /-- The key under which other mappings are merged in. -/
  | merge
  /-- The key of the value that stands for a mapping. -/
  | default
  | unknown
deriving DecidableEq, Repr

namespace Tag

/-- What the names of the standard tags start with. -/
def standard : String := "tag:yaml.org,2002:"

/-- The standard tags by name. -/
def names : List (String × Tag) :=
  [("null", null), ("bool", bool), ("int", int), ("float", float), ("timestamp", timestamp),
   ("str", text), ("binary", binary), ("seq", sequence), ("map", mapping), ("set", set),
   ("omap", orderedMapping), ("pairs", pairs), ("merge", merge), ("value", default)]

/-- The tag of a URI. -/
def ofUri (uri : String) : Tag :=
  ((names.find? fun n => standard ++ n.1 == uri).map (·.2)).getD unknown

/-! ### Forms of plain scalars -/

/-- Whether a text is one of some words. -/
def isWord (words : List String) (s : List Char) : Bool := words.any (·.toList == s)

/-- The words for nothing. -/
def isNull (s : List Char) : Bool := isWord ["", "~", "null", "Null", "NULL"] s

/-- The words for truth. -/
def isBool (s : List Char) : Bool :=
  isWord ["yes", "Yes", "YES", "no", "No", "NO", "true", "True", "TRUE", "false", "False", "FALSE",
    "on", "On", "ON", "off", "Off", "OFF"] s

/-- A text without a sign at its front. -/
def unsigned : List Char → List Char
  | '-' :: rest => rest
  | '+' :: rest => rest
  | rest => rest

/-- Whether a text has only characters of a class and underscores, and is not empty. -/
def isRun (p : Char → Bool) (s : List Char) : Bool :=
  !s.isEmpty && s.all fun c => p c || c == '_'

/-- Whether a text is a digit, and then digits and underscores. -/
def isNumeral (s : List Char) : Bool :=
  match s with
  | c :: rest => c.isDigit && rest.all fun c => c.isDigit || c == '_'
  | [] => false

/-- Whether a text has only digits and underscores, or is empty. -/
def isTail (s : List Char) : Bool := s.all fun c => c.isDigit || c == '_'

/-- Whether a text is a number below sixty, of one or two digits. -/
def isSixtieth : List Char → Bool
  | [a] => a.isDigit
  | [a, b] => '0' ≤ a && a ≤ '5' && b.isDigit
  | _ => false

/-- Whether a text is a numeral and then one or more numbers below sixty, with colons between
them. -/
def isSexagesimal (s : List Char) : Bool :=
  match Text.pieces ':' s with
  | first :: rest => isNumeral first && !rest.isEmpty && rest.all isSixtieth
  | [] => false

/-- Whether a text is an integer: in binary, octal, hexadecimal, decimal or sexagesimal notation. -/
def isInt (s : List Char) : Bool :=
  let t := unsigned s
  match t with
  | '0' :: 'b' :: rest => isRun (fun c => c == '0' || c == '1') rest
  | '0' :: 'x' :: rest => isRun (fun c => (Text.Digit.hexValue? c).isSome) rest
  | ['0'] => true
  | '0' :: rest => isRun (fun c => '0' ≤ c && c ≤ '7') rest
  | t => isNumeral t || isSexagesimal t

/-- Whether a text is the exponent of a number, with its sign, or empty. -/
def isExponent : List Char → Bool
  | [] => true
  | e :: sign :: rest =>
    (e == 'e' || e == 'E') && (sign == '-' || sign == '+') && !rest.isEmpty && rest.all Char.isDigit
  | _ => false

/-- Whether a text is what follows the point of a number. -/
def isFraction (s : List Char) : Bool :=
  isExponent (s.dropWhile fun c => c.isDigit || c == '_')

/-- Whether a text is a number with a point, in decimal or sexagesimal notation, or a word for
infinity or for what is no number. Without a digit before the point it has no sign. -/
def isFloat (s : List Char) : Bool :=
  let t := unsigned s
  let whole := Text.before '.' t
  let rest := Text.after '.' t
  t.contains '.' &&
    ((isNumeral whole && isFraction rest)
      || (isSexagesimal whole && isTail rest)
      || (whole.isEmpty && isWord ["inf", "Inf", "INF"] rest)
      || (s == t && whole.isEmpty && isWord ["nan", "NaN", "NAN"] rest)
      || (s == t && whole.isEmpty && isNumeral (rest.takeWhile fun c => c.isDigit || c == '_')
        && isFraction rest))

end Tag

/-- The parts of a date or a time as they are written. The offset from UTC is in minutes. -/
structure Moment where
  year : Nat
  month : Nat
  day : Nat
  time : Option (Nat × Nat × Nat × Nat)
  offset : Option Int
deriving DecidableEq, Repr

namespace Moment

/-- Between `least` and two digits at the front, and what follows. -/
def digits? (least : Nat) (s : List Char) : Option (Nat × List Char) :=
  let ds := ((s.take 2).takeWhile Char.isDigit).filterMap Text.Digit.asciiValue?
  if ds.length < least then none else some (Text.Digit.number 10 ds, s.drop ds.length)

/-- What follows a character at the front. -/
def after? (c : Char) : List Char → Option (List Char)
  | x :: rest => if x = c then some rest else none
  | [] => none

/-- The year, month and day at the front, and what follows. A month and a day may have one digit. -/
def date? (s : List Char) : Option (Nat × Nat × Nat × List Char) := do
  let ys := (s.take 4).filterMap Text.Digit.asciiValue?
  if ys.length ≠ 4 then none
  else
    let rest ← after? '-' (s.drop 4)
    let (month, rest) ← digits? 1 rest
    let rest ← after? '-' rest
    let (day, rest) ← digits? 1 rest
    return (Text.Digit.number 10 ys, month, day, rest)

/-- The fraction of a second after its point in microseconds; more digits do not count. -/
def micros (s : List Char) : Nat :=
  let ds := ((s.take 6).filterMap Text.Digit.asciiValue?)
  Text.Digit.number 10 ds * Nat.pow 10 (6 - ds.length)

/-- The offset that is all of a text: `Z`, or a sign, hours and perhaps minutes. Blanks may come
first. -/
def offset? (s : List Char) : Option (Option Int) :=
  match s.dropWhile fun c => c == ' ' || c == '\t' with
  | [] => if s.isEmpty then some none else none
  | ['Z'] => some (some 0)
  | sign :: rest => do
    if sign ≠ '-' && sign ≠ '+' then none
    else
      let (hours, rest) ← digits? 1 rest
      let minutes ← match rest with
        | [] => some 0
        | ':' :: rest =>
          match digits? 2 rest with
          | some (m, []) => some m
          | _ => none
        | _ => none
      let n : Int := hours * 60 + minutes
      return some (if sign = '-' then -n else n)

/-- The time and offset that are all of a text, which comes after a date: a `T` or blanks, hours,
minutes and seconds, perhaps a fraction and an offset. -/
def time? (s : List Char) : Option ((Nat × Nat × Nat × Nat) × Option Int) := do
  let rest ← match s with
    | 'T' :: rest => some rest
    | 't' :: rest => some rest
    | c :: rest =>
      if c = ' ' || c = '\t' then some (rest.dropWhile fun c => c == ' ' || c == '\t') else none
    | [] => none
  let (hour, rest) ← digits? 1 rest
  let rest ← after? ':' rest
  let (minute, rest) ← digits? 2 rest
  let rest ← after? ':' rest
  let (second, rest) ← digits? 2 rest
  let (micro, rest) := match rest with
    | '.' :: part => (micros (part.takeWhile Char.isDigit), part.dropWhile Char.isDigit)
    | rest => (0, rest)
  let offset ← offset? rest
  return ((hour, minute, second, micro), offset)

/-- The moment that a text writes: a date, with a time or without. -/
def ofText? (s : List Char) : Option Moment := do
  let (year, month, day, rest) ← date? s
  if rest.isEmpty then return ⟨year, month, day, none, none⟩
  else
    let (time, offset) ← time? rest
    return ⟨year, month, day, some time, offset⟩

end Moment

namespace Tag

/-- Whether a text is a date or a time. A date without a time has two digits for month and day. -/
def isTimestamp (s : List Char) : Bool :=
  match Moment.ofText? s with
  | some m => m.time.isSome || s.length == 10
  | none => false

/-- The kind of a plain scalar. -/
def ofPlain (s : List Char) : Tag :=
  if isNull s then null
  else if isBool s then bool
  else if isFloat s then float
  else if isInt s then int
  else if s == ['<', '<'] then merge
  else if isTimestamp s then timestamp
  else if s == ['='] then default
  else text

end Tag
end Slipway.Yaml
