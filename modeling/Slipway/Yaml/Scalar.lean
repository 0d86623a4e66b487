import Slipway.Fault
import Slipway.Yaml.Cursor
import Slipway.Yaml.Token

/-!
# `Slipway.Yaml.Scalar`: scalars read off a text

A plain scalar ends where an indicator or a comment could begin, a quoted one at its quote, and a
block at the first line that is less indented. Lines are folded: one break is a space, and of
several the first is dropped. Each reader gives the scalar and the place after it. -/

set_option autoImplicit false

namespace Slipway.Yaml.Scalar

open Slipway.Yaml (Cursor isBreak isInset endsLine endsField endsWord)

/-- Lines folded into one: what stands for a break and those that follow it. -/
def fold (first : Char) (breaks : List Char) : List Char :=
  (if first ≠ '\n' then [first] else if breaks.isEmpty then [' '] else []) ++ breaks

/-! ### Plain scalars -/

/-- Whether a plain scalar ends before a character, which another one follows. -/
def endsPlain (inFlow : Bool) (c : Char) (following : Option Char) : Bool :=
  isBreak c || isInset c
    || (c == ':' && (endsWord following
        || (inFlow && (following.map fun d => [',', '[', ']', '\x7b', '\x7d'].contains d).getD
          false)))
    || (inFlow && [',', '?', '[', ']', '\x7b', '\x7d'].contains c)

/-- The length of the word of a plain scalar at the front of a text. -/
def wordLength (inFlow : Bool) : List Char → Nat
  | [] => 0
  | c :: rest => if endsPlain inFlow c rest.head? then 0 else wordLength inFlow rest + 1

/-- The breaks after a first one, with the spaces around them; none if documents are divided
there. Fuel is given for each character. -/
def plainBreaks : Nat → Cursor → Option (List Char) × Cursor
  | 0, c => (some [], c)
  | fuel + 1, c =>
    if c.sees ' ' then plainBreaks fuel c.next
    else match c.break? with
    | none => (some [], c)
    | some (b, after) =>
      if after.seesDivider then (none, after)
      else
        let r := plainBreaks fuel after
        (r.1.map (b :: ·), r.2)

/-- What stands between two words of a plain scalar, if anything does, whether it goes over a line,
and the place after it. -/
def plainSpaces (c : Cursor) : List Char × Bool × Cursor :=
  let spaces := c.run (· == ' ')
  let after := c.skipSpaces
  match after.break? with
  | none => (spaces, false, after)
  | some (b, next) =>
    if next.seesDivider then ([], true, next)
    else match plainBreaks (next.rest.length + 1) next with
    | (none, last) => ([], true, last)
    | (some breaks, last) => (fold b breaks, true, last)

/-- A plain scalar read so far: its content, whether it ended with its line, and the place. -/
structure Plain where
  content : List Char
  endedLine : Bool
  place : Cursor

/-- The words of a plain scalar from a place on. In a block the lines after the first are indented
by at least `indent`. Fuel is given for each word. -/
def plainFrom (inFlow : Bool) (indent : Int) : Nat → List Char → Cursor → Plain
  | 0, content, c => ⟨content, false, c⟩
  | fuel + 1, content, c =>
    let n := wordLength inFlow c.rest
    if n = 0 then ⟨content, false, c⟩
    else
      let content := content ++ c.rest.take n
      let (spaces, brokeLine, after) := plainSpaces (c.skip n)
      if spaces.isEmpty || after.sees '#' || (!inFlow && (after.column : Int) < indent)
          || wordLength inFlow after.rest = 0 then
        ⟨content, brokeLine, after⟩
      else plainFrom inFlow indent fuel (content ++ spaces) after

/-- The plain scalar at a place. -/
def plain (inFlow : Bool) (indent : Int) (c : Cursor) : Plain :=
  plainFrom inFlow indent (c.rest.length + 1) [] c

/-! ### Quoted scalars -/

/-- The character that a letter after a backslash stands for. -/
def escaped? : Char → Option Char
  | '0' => some (Char.ofNat 0)
  | 'a' => some (Char.ofNat 7)
  | 'b' => some (Char.ofNat 8)
  | 't' => some '\t'
  | '\t' => some '\t'
  | 'n' => some '\n'
  | 'v' => some (Char.ofNat 11)
  | 'f' => some (Char.ofNat 12)
  | 'r' => some '\r'
  | 'e' => some (Char.ofNat 27)
  | ' ' => some ' '
  | '"' => some '"'
  | '\\' => some '\\'
  | '/' => some '/'
  | 'N' => some (Char.ofNat 0x85)
  | '_' => some (Char.ofNat 0xA0)
  | 'L' => some (Char.ofNat 0x2028)
  | 'P' => some (Char.ofNat 0x2029)
  | _ => none

/-- How many hexadecimal digits follow a letter after a backslash. -/
def escapeWidth? : Char → Option Nat
  | 'x' => some 2
  | 'u' => some 4
  | 'U' => some 8
  | _ => none

/-- The code point that hexadecimal digits write, if there are as many as there should be. -/
def codePoint? (width : Nat) (s : List Char) : Option Nat :=
  let ds := (s.take width).filterMap Text.Digit.hexValue?
  if ds.length = width then some (Text.Digit.number 16 ds) else none

/-- A quoted scalar read so far. -/
structure Quoted where
  content : List Char
  isWhole : Bool
  place : Cursor

/-- The breaks after a first one, with the blanks around them. No documents may be divided there.
Fuel is given for each line. -/
def quotedBreaks : Nat → Cursor → Except Defect (List Char × Cursor)
  | 0, c => .ok ([], c)
  | fuel + 1, c =>
    if c.seesDivider then .error .notYaml
    else
      let c := c.skipRun isInset
      match c.break? with
      | none => .ok ([], c)
      | some (b, after) => (quotedBreaks fuel after).map fun r => (b :: r.1, r.2)

/-- Blanks and breaks between the words of a quoted scalar. -/
def quotedSpaces (c : Cursor) : Except Defect (List Char × Cursor) :=
  let blanks := c.run isInset
  let after := c.skipRun isInset
  match after.head? with
  | none => .error .notYaml
  | some _ =>
    match after.break? with
    | none => .ok (blanks, after)
    | some (b, next) =>
      (quotedBreaks (next.rest.length + 1) next).map fun r => (fold b r.1, r.2)

/-- A character that is written with a backslash, which comes before the place. A line that ends in
a backslash goes on after the breaks and blanks. -/
def quotedEscape (q : Quoted) (c : Cursor) : Except Defect Quoted :=
  match c.head? with
  | none => .error .notYaml
  | some x =>
    match escaped? x, escapeWidth? x, c.break? with
    | some y, _, _ => .ok ⟨q.content ++ [y], q.isWhole, c.next⟩
    | none, some width, _ =>
      match codePoint? width c.next.rest with
      | none => .error .notYaml
      | some n =>
        if 0x10FFFF < n then .error .notACodePoint
        else
          let isHalf := 0xD800 ≤ n && n ≤ 0xDFFF
          .ok ⟨q.content ++ [Char.ofNat n], q.isWhole && !isHalf, c.next.skip width⟩
    | none, none, some (_, after) =>
      (quotedBreaks (after.rest.length + 1) after).map fun r => ⟨q.content ++ r.1, q.isWhole, r.2⟩
    | none, none, none => .error .notYaml

/-- A quoted scalar up to its quote. Between double quotes a backslash escapes; between single ones
a quote is written twice. Fuel is given for each character. -/
def quotedFrom (isDouble : Bool) : Nat → Quoted → Except Defect Quoted
  | 0, _ => .error .notYaml
  | fuel + 1, q =>
    let c := q.place
    match c.head? with
    | none => .error .notYaml
    | some x =>
      if isBreak x || isInset x then
        match quotedSpaces c with
        | .error e => .error e
        | .ok (spaces, after) =>
          quotedFrom isDouble fuel ⟨q.content ++ spaces, q.isWhole, after⟩
      else if isDouble && x == '\\' then
        match quotedEscape q c.next with
        | .error e => .error e
        | .ok q => quotedFrom isDouble fuel q
      else if isDouble && x == '"' then .ok { q with place := c.next }
      else if !isDouble && x == '\'' then
        if c.get? 1 == some '\'' then
          quotedFrom isDouble fuel ⟨q.content ++ ['\''], q.isWhole, c.skip 2⟩
        else .ok { q with place := c.next }
      else quotedFrom isDouble fuel ⟨q.content ++ [x], q.isWhole, c.next⟩

/-- The quoted scalar at a place, which is at its quote. -/
def quoted (isDouble : Bool) (c : Cursor) : Except Defect (Scalar × Cursor) :=
  (quotedFrom isDouble (c.rest.length + 1) ⟨[], true, c.next⟩).map fun q =>
    (⟨q.content, false, q.isWhole⟩, q.place)

/-! ### Blocks -/

/-- What becomes of the breaks at the end of a block: one is kept, all are or none is. -/
inductive Chomping where
  | clip
  | keep
  | strip
deriving DecidableEq, Repr

/-- The chomping at the front of a header. -/
def chomping? (c : Cursor) : Option (Chomping × Cursor) :=
  match c.head? with
  | some '+' => some (.keep, c.next)
  | some '-' => some (.strip, c.next)
  | _ => none

/-- The indentation at the front of a header, a digit that is not zero. -/
def increment? (c : Cursor) : Except Defect (Option (Nat × Cursor)) :=
  match c.head?.bind Text.Digit.asciiValue? with
  | none => .ok none
  | some 0 => .error .notYaml
  | some n => .ok (some (n, c.next))

/-- A header: chomping and indentation in either order. -/
def header (c : Cursor) : Except Defect (Chomping × Option Nat × Cursor) :=
  match chomping? c with
  | some (chomping, after) =>
    (increment? after).map fun
      | some (n, last) => (chomping, some n, last)
      | none => (chomping, none, after)
  | none =>
    (increment? c).map fun
      | some (n, after) =>
        match chomping? after with
        | some (chomping, last) => (chomping, some n, last)
        | none => (.clip, some n, after)
      | none => (.clip, none, c)

/-- The line after a place at which nothing but a comment follows. -/
def nextLine (c : Cursor) : Except Defect Cursor :=
  let c := c.skipSpaces.skipComment
  match c.head?, c.break? with
  | none, _ => .ok c
  | some _, some (_, after) => .ok after
  | some _, none => .error .notYaml

/-- The place after at most so many spaces that the column is `indent`. -/
def skipIndent (indent : Nat) (c : Cursor) : Cursor :=
  c.skip (min (indent - c.column) (c.run (· == ' ')).length)

/-- The breaks of empty lines, each of which may be indented. Fuel is given for each line. -/
def blockBreaks (indent : Nat) : Nat → Cursor → List Char × Cursor
  | 0, c => ([], c)
  | fuel + 1, c =>
    let c := skipIndent indent c
    match c.break? with
    | none => ([], c)
    | some (b, after) =>
      let r := blockBreaks indent fuel after
      (b :: r.1, r.2)

/-- The breaks of empty lines before the first line, and the greatest indentation among them and it.
Fuel is given for each line. -/
def leadingBreaks : Nat → Nat → Cursor → List Char × Nat × Cursor
  | 0, deepest, c => ([], deepest, c)
  | fuel + 1, deepest, c =>
    let c := c.skipSpaces
    let deepest := max deepest c.column
    match c.break? with
    | none => ([], deepest, c)
    | some (b, after) =>
      let r := leadingBreaks fuel deepest after
      (b :: r.1, r.2)

/-- What stands for the breaks between two lines of a block. Only lines that start with no blank are
folded. -/
def between (folded : Bool) (first : Option Char) (leads : Bool) (breaks : List Char)
    (next : Option Char) : List Char :=
  let nextLeads := !((next.map isInset).getD false)
  let break_ := first.toList
  if folded && first == some '\n' && leads && nextLeads then
    (if breaks.isEmpty then [' '] else []) ++ breaks
  else break_ ++ breaks

/-- The lines of a block from a place on, which is at the front of one. Fuel is given for each
line. -/
def blockLines (folded : Bool) (chomping : Chomping) (indent : Nat) :
    Nat → Cursor → List Char × Cursor
  | 0, c => ([], c)
  | fuel + 1, c =>
    let line := c.run fun x => !isBreak x
    let leads := !((c.head?.map isInset).getD false)
    let after := c.skip line.length
    let (first, next) : Option Char × Cursor := match after.break? with
      | some (b, next) => (some b, next)
      | none => (none, after)
    let (breaks, last) := blockBreaks indent (next.rest.length + 1) next
    if last.column = indent && last.head?.isSome then
      let r := blockLines folded chomping indent fuel last
      (line ++ between folded first leads breaks last.head? ++ r.1, r.2)
    else
      (line ++ (if chomping = .strip then [] else first.toList)
        ++ (if chomping = .keep then breaks else []), last)

/-- The block at a place, which is at its indicator. Its lines are indented further than `parent`.
-/
def block (folded : Bool) (parent : Int) (c : Cursor) : Except Defect (Scalar × Cursor) := do
  let (chomping, increment, afterHeader) ← header c.next
  if !endsField afterHeader.head? then .error .notYaml
  else
    let first ← nextLine afterHeader
    let least := (max (parent + 1) 1).toNat
    let (breaks, indent, place) : List Char × Nat × Cursor := match increment with
      | some n =>
        let indent := least + n - 1
        let r := blockBreaks indent (first.rest.length + 1) first
        (r.1, indent, r.2)
      | none =>
        let r := leadingBreaks (first.rest.length + 1) 0 first
        (r.1, max least r.2.1, r.2.2)
    if place.column = indent && place.head?.isSome then
      let r := blockLines folded chomping indent (place.rest.length + 1) place
      return (⟨breaks ++ r.1, false, true⟩, r.2)
    else return (⟨if chomping = .keep then breaks else [], false, true⟩, place)

end Slipway.Yaml.Scalar
