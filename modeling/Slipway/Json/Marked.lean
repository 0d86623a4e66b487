import Slipway.Binary64.Reading
import Slipway.Datum.Shown

/-!
# `Slipway.Json.Marked`: what JSON cannot hold

Bytes, and the floating-point numbers that JSON has no text for, are objects with one member whose
name is a mark: `$bytes` with the bytes in hexadecimal, `$float` with the number as a text. Reading
takes a plain text for its bytes and a plain number for itself; writing always marks, so that bytes
are told from texts and whole floating-point numbers from integers.
-/

set_option autoImplicit false

namespace Slipway.Json.Marked

open Slipway.Text.Utf8 (Bytes)

/-- The bytes that hexadecimal digits write. -/
def unhex : List Char → Bytes
  | a :: b :: rest =>
    UInt8.ofNat ((Text.Digit.hexValue? a).getD 0 * 16 + (Text.Digit.hexValue? b).getD 0)
      :: unhex rest
  | _ => []

/-- Bytes in hexadecimal. -/
def hex (b : Bytes) : String := String.ofList (b.flatMap fun x => Text.Digit.padded 16 2 x.toNat)

/-- The number that a text writes; what writes none is no number. -/
def numberOf (s : String) : Binary64 := (Binary64.Reading.decimal? s.toList).getD .nan

/-- Bytes. -/
def bytes : Json → Bytes
  | .text s => Text.Utf8.ofString s
  | .object [("$bytes", .text s)] => unhex s.toList
  | _ => []

/-- A number. -/
def number? : Json → Option Binary64
  | .int n => some (.ofInt n)
  | .float x => some x
  | .object [("$float", .text s)] => some (numberOf s)
  | _ => none

mutual

/-- JSON without marks of numbers. -/
def unmark : Json → Json
  | .list items => .list (unmarkAll items)
  | .object [("$float", .text s)] => .float (numberOf s)
  | .object members => .object (unmarkMembers members)
  | j => j

/-- The items of a list without marks of numbers. -/
def unmarkAll : List Json → List Json
  | [] => []
  | j :: rest => unmark j :: unmarkAll rest

/-- The members of an object without marks of numbers. -/
def unmarkMembers : List (String × Json) → List (String × Json)
  | [] => []
  | (k, j) :: rest => (k, unmark j) :: unmarkMembers rest

end

/-- Bytes with their mark. -/
def ofBytes (b : Bytes) : Json := .object [("$bytes", .text (hex b))]

/-- A floating-point number with its mark. -/
def ofNumber (x : Binary64) : Json := .object [("$float", .text x.toText)]

mutual

/-- A datum. Dates and times are texts, a set is a list, and a factory is only marked as such. -/
def ofDatum : Datum → Json
  | .null => .null
  | .bool b => .bool b
  | .int n => .int n
  | .float x => ofNumber x
  | .text s => .text s
  | .bytes b => ofBytes b
  | .date d => .text d.text
  | .timestamp t => .text t.text
  | .list items => .list (ofData items)
  | .set items => .list (ofData items)
  | .mapping entries => .object (ofEntries entries)
  | .factory _ => .object [("$callable", .bool true)]

/-- Data in order. -/
def ofData : List Datum → List Json
  | [] => []
  | d :: rest => ofDatum d :: ofData rest

/-- The entries of a mapping. Keys that are no texts are as messages show them. -/
def ofEntries : List (Datum × Datum) → List (String × Json)
  | [] => []
  | (k, d) :: rest => (k.shown, ofDatum d) :: ofEntries rest

end

/-- A text, or null. -/
def ofText? : Option String → Json
  | none => .null
  | some s => .text s

/-- Texts in order. -/
def ofTexts (xs : List String) : Json := .list (xs.map .text)

/-- A table of texts. -/
def ofTable (t : List (String × String)) : Json := .object (t.map fun e => (e.1, .text e.2))

end Slipway.Json.Marked
