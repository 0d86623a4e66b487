import Slipway.Json.Basic
import Slipway.Spec

/-!
# `Slipway.Datum.Basic`: data before it is checked

A datum is what a plan, a script or a caller hands in: scalars, texts, bytes, dates, lists, mappings
with keys of any kind, and factories of steps. Checks turn it into the types of the domain.
-/

set_option autoImplicit false

namespace Slipway

open Slipway.Text.Utf8 (Bytes)

/-- Data before it is checked. -/
inductive Datum where
  | null
  | bool (b : Bool)
  | int (n : Int)
  | float (x : Binary64)
  | text (s : String)
  | bytes (b : Bytes)
  | date (d : Calendar.Date)
  | timestamp (t : Calendar.Timestamp)
  | list (items : List Datum)
  | set (items : List Datum)
  | mapping (entries : List (Datum × Datum))
  | factory (make : Factory)

namespace Datum

instance : Inhabited Datum := ⟨.null⟩

/-- A mapping with texts as keys. -/
def record (fields : List (String × Datum)) : Datum :=
  .mapping (fields.map fun f => (.text f.1, f.2))

/-- Whether a key is a text. -/
def isKey (name : String) : Datum → Bool
  | text s => s == name
  | _ => false

/-- The entry of a mapping under a text. -/
def entry? (name : String) : List (Datum × Datum) → Option Datum
  | [] => none
  | (k, v) :: rest => if isKey name k then some v else entry? name rest

/-- The field of a datum, if it is a mapping that has it. -/
def field? (name : String) : Datum → Option Datum
  | mapping entries => entry? name entries
  | _ => none

mutual

/-- JSON as a datum. -/
def ofJson : Json → Datum
  | .null => null
  | .bool b => bool b
  | .int n => int n
  | .float x => float x
  | .text s => text s
  | .list items => list (ofJsonList items)
  | .object members => mapping (ofJsonMembers members)

/-- The items of a JSON list as data. -/
def ofJsonList : List Json → List Datum
  | [] => []
  | v :: rest => ofJson v :: ofJsonList rest

/-- The members of a JSON object as entries. -/
def ofJsonMembers : List (String × Json) → List (Datum × Datum)
  | [] => []
  | (k, v) :: rest => (text k, ofJson v) :: ofJsonMembers rest

end

end Datum
end Slipway
