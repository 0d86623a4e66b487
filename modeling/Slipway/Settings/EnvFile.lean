import Slipway.Text.Blank
import Slipway.Text.Cut

/-!
# `Slipway.Settings.EnvFile`: files of environment variables

Each line binds a name to a value: `NAME=value`, with `export` in front if one likes. A value in
quotes may go over several lines and have escapes; one without ends at a blank and a number sign, or
with the line. A line that is nothing of the kind is left out. In a value, a name in braces after a
dollar sign stands for the value of that name, and `:-` in the braces begins what stands for it if
it has none. -/

set_option autoImplicit false

namespace Slipway.Settings.EnvFile

open Slipway.Text (isBlank)

/-- A blank that does not end the line. -/
def isInnerBlank (c : Char) : Bool := isBlank c && c != '\n' && c != '\r'

/-- Line ends of any kind as line feeds. -/
def unifyLines : List Char → List Char
  | [] => []
  | '\r' :: '\n' :: rest => '\n' :: unifyLines rest
  | '\r' :: rest => '\n' :: unifyLines rest
  | c :: rest => c :: unifyLines rest

/-- A text up to the first quote that has no backslash before it, and what follows the quote. The
previous character is known. -/
def closed? (quote : Char) : Char → List Char → Option (List Char × List Char)
  | _, [] => none
  | previous, c :: rest =>
    if c = quote && previous != '\\' then some ([], rest)
    else (closed? quote c rest).map fun r => (c :: r.1, r.2)

/-- A text up to its last quote, and what follows the quote. -/
def closedLast? (quote : Char) (s : List Char) : Option (List Char × List Char) :=
  if s.contains quote then
    let tail := Text.afterLast quote s
    some (s.take (s.length - tail.length - 1), tail)
  else none

/-- The text up to the closing quote, and what follows: the first quote without a backslash before
it, or else the last quote of all. -/
def quoted? (quote : Char) (s : List Char) : Option (List Char × List Char) :=
  (closed? quote quote s).orElse fun _ => closedLast? quote s

/-- The character that an escape stands for between double quotes. -/
def escaped? : Char → Option Char
  | '\\' => some '\\'
  | '\'' => some '\''
  | '"' => some '"'
  | 'a' => some (Char.ofNat 7)
  | 'b' => some (Char.ofNat 8)
  | 'f' => some (Char.ofNat 12)
  | 'n' => some '\n'
  | 'r' => some '\r'
  | 't' => some '\t'
  | 'v' => some (Char.ofNat 11)
  | _ => none

/-- The character that an escape stands for between single quotes. -/
def plainEscaped? : Char → Option Char
  | '\\' => some '\\'
  | '\'' => some '\''
  | _ => none

/-- A text with its escapes replaced. -/
def unescape (escape? : Char → Option Char) : List Char → List Char
  | '\\' :: c :: rest =>
    match escape? c with
    | some d => d :: unescape escape? rest
    | none => '\\' :: unescape escape? (c :: rest)
  | c :: rest => c :: unescape escape? rest
  | [] => []

/-- A text without blanks followed by a number sign, and what follows them. -/
def withoutComment : List Char → List Char
  | [] => []
  | c :: rest =>
    if isBlank c && (rest.dropWhile isBlank).head? = some '#' then []
    else c :: withoutComment rest

/-- A text without the blanks at its end. -/
def trimEnd (s : List Char) : List Char := (s.reverse.dropWhile isBlank).reverse

/-- A value at the front, and what follows. -/
def value? (s : List Char) : Option (List Char × List Char) :=
  match s with
  | '\'' :: rest => (quoted? '\'' rest).map fun r => (unescape plainEscaped? r.1, r.2)
  | '"' :: rest => (quoted? '"' rest).map fun r => (unescape escaped? r.1, r.2)
  | s => some (trimEnd (withoutComment (s.takeWhile (· != '\n'))), s.dropWhile (· != '\n'))

/-- A text without the word `export` and the blanks after it at its front. -/
def withoutExport (s : List Char) : List Char :=
  let word := "export".toList
  let rest := s.drop word.length
  if word.isPrefixOf s && (rest.head?.map isInnerBlank).getD false then rest.dropWhile isInnerBlank
  else s

/-- A name at the front, and what follows. -/
def name? (s : List Char) : Option (List Char × List Char) :=
  match s with
  | '\'' :: rest =>
    let name := Text.before '\'' rest
    if rest.contains '\'' && !name.isEmpty then some (name, Text.after '\'' rest) else none
  | s =>
    let inName := fun (c : Char) => c != '=' && c != '#' && !isBlank c
    let name := s.takeWhile inName
    if name.isEmpty then none else some (name, s.dropWhile inName)

/-- What follows the line, if nothing but a comment is left of it. -/
def lineEnd? (s : List Char) : Option (List Char) :=
  match s.dropWhile isInnerBlank with
  | [] => some []
  | '\n' :: rest => some rest
  | '#' :: rest => some ((rest.dropWhile (· != '\n')).drop 1)
  | _ => none

/-- The line without its end, and what follows. -/
def skipLine (s : List Char) : List Char := (s.dropWhile (· != '\n')).drop 1

/-- A name with its value, if it has one. -/
abbrev Binding := String × Option String

/-- The binding at the front of a text that does not start with a blank, if there is one, and what
follows its line. -/
def binding (s : List Char) : Option Binding × List Char :=
  let s := withoutExport s
  if s.head? = some '#' then (none, skipLine s)
  else match name? s with
  | none => (none, skipLine s)
  | some (name, rest) =>
    let rest := rest.dropWhile isInnerBlank
    let given : Option (Option (List Char) × List Char) := match rest with
      | '=' :: after => (value? (after.dropWhile isInnerBlank)).map fun r => (some r.1, r.2)
      | rest => some (none, rest)
    match given with
    | none => (none, skipLine rest)
    | some (value, rest) =>
      match lineEnd? rest with
      | some after => (some (String.ofList name, value.map String.ofList), after)
      | none => (none, skipLine rest)

/-- The bindings of a text, given fuel for each of its lines. -/
def bindingsOf : Nat → List Char → List Binding
  | 0, _ => []
  | fuel + 1, s =>
    match s.dropWhile isBlank with
    | [] => []
    | c :: rest =>
      let r := binding (c :: rest)
      match r.1 with
      | some b => b :: bindingsOf fuel r.2
      | none => bindingsOf fuel r.2

/-- The bindings of a text. -/
def bindings (text : String) : List Binding :=
  let s := unifyLines text.toList
  bindingsOf (s.length + 1) s

/-- The value of a name among variables, of which the last with the name counts. -/
def lookup? (known : List (String × Option String)) (name : String) : Option (Option String) :=
  (known.reverse.find? (·.1 == name)).map (·.2)

/-- A reference at the front of what follows a dollar sign and a brace: the name, what stands for it
if it has no value, and what follows the closing brace. -/
def reference? (s : List Char) : Option (List Char × List Char × List Char) :=
  let inName := fun (c : Char) => c != '\x7d' && c != ':'
  let name := s.takeWhile inName
  match s.dropWhile inName with
  | '\x7d' :: rest => some (name, [], rest)
  | ':' :: '-' :: rest =>
    if rest.contains '\x7d' then some (name, Text.before '\x7d' rest, Text.after '\x7d' rest)
    else none
  | _ => none

/-- A value with its references replaced, given fuel for each character. -/
def expandOf (known : List (String × Option String)) : Nat → List Char → List Char
  | 0, s => s
  | _ + 1, [] => []
  | fuel + 1, '$' :: '\x7b' :: rest =>
    match reference? rest with
    | some (name, other, after) =>
      (match lookup? known (String.ofList name) with
        | some value => (value.getD "").toList
        | none => other) ++ expandOf known fuel after
    | none => '$' :: expandOf known fuel ('\x7b' :: rest)
  | fuel + 1, c :: rest => c :: expandOf known fuel rest

/-- Variables with one more, in the place of the one of that name if there is one. -/
def put (known : List Binding) (b : Binding) : List Binding :=
  if known.any (·.1 == b.1) then known.map fun v => if v.1 == b.1 then b else v
  else known ++ [b]

/-- The variables that bindings define, each once. References are to those before, and to
those of the environment. -/
def resolve (environment : List (String × String)) (bs : List Binding) : List Binding :=
  bs.foldl (fun done b =>
    let known := environment.map (fun e => (e.1, some e.2)) ++ done
    put done
      (b.1, b.2.map fun v => String.ofList (expandOf known (v.length + 1) v.toList))) []

end Slipway.Settings.EnvFile
