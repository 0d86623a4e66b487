import Slipway.Datum.Shown
import Slipway.Validation.Scalar

/-!
# `Slipway.Validation.Record`: checks of lists, tables and records

A record check names its fields in order: `required`, `optional` with a default, and `requiredAs`
and `optionalAs` for a field that goes by two names. An issue inside a field is placed under the
name by which the field was found. Unknown fields are left alone. -/

set_option autoImplicit false

namespace Slipway.Validation

variable {α : Type}

/-- The checks of items, each placed under its position. -/
def itemChecks (check : Check α) : Int → List Datum → List (Checked α)
  | _, [] => []
  | i, d :: rest => (check d).under (.index i) :: itemChecks check (i + 1) rest

/-- The items of a list or set. -/
def items? : Datum → Option (List Datum)
  | .list items => some items
  | .set items => some items
  | _ => none

/-- A list. -/
def list (check : Check α) : Check (List α) := fun d =>
  match items? d with
  | some items => Checked.all (itemChecks check 0 items)
  | none => .fail .notList

/-- A list of at least so many items. Items that fail are not counted again. -/
def listFrom (least : Nat) (check : Check α) : Check (List α) := fun d =>
  (list check d).andThen fun xs =>
    if least ≤ xs.length then .valid xs else .fail (.tooFewItems "List" least xs.length)

/-- A tuple. -/
def tuple (check : Check α) : Check (List α) := fun d =>
  match items? d with
  | some items => Checked.all (itemChecks check 0 items)
  | none => .fail .notTuple

/-- A tuple of at least so many items. Items that fail do not count. -/
def tupleFrom (least : Nat) (check : Check α) : Check (List α) := fun d =>
  match items? d with
  | none => .fail .notTuple
  | some items =>
    let checks := itemChecks check 0 items
    let sound := (checks.filterMap Checked.value?).length
    let result := Checked.all checks
    if least ≤ sound then result
    else .invalid (result.issues ++ [.here (.tooFewItems "Tuple" least sound)])

/-- The place of a key in a table. -/
def placeOf : Datum → Place
  | .text s => .key s
  | .int n => .index n
  | .bool b => .index (if b then 1 else 0)
  | d => .key d.quoted

/-- The entries of a table with texts as keys. -/
def entryChecks (check : Check α) (entries : List (Datum × Datum)) :
    List (Checked (String × α)) :=
  entries.map fun e =>
    let key := ((string e.1).under (.key "[key]")).under (placeOf e.1)
    let value := (check e.2).under (placeOf e.1)
    Checked.apply (Checked.map Prod.mk key) value

/-- A table with one more entry, in place of one that has its key if there is one. -/
def put (key : String) (value : α) : List (String × α) → List (String × α)
  | [] => [(key, value)]
  | e :: rest => if e.1 = key then (key, value) :: rest else e :: put key value rest

/-- Entries as a table. Keys may differ as data and be the same text; then the last entry counts. -/
def collect (entries : List (String × α)) : List (String × α) :=
  entries.foldl (fun t e => put e.1 e.2 t) []

/-- A table with texts as keys. -/
def table (check : Check α) : Check (List (String × α)) := fun d =>
  match d with
  | .mapping entries => (Checked.all (entryChecks check entries)).map collect
  | _ => .fail .notMapping

/-- A table of any data. -/
def anyTable : Check (List (String × Datum)) := table .valid

/-- A mapping of any data. -/
def anyMapping : Check (List (Datum × Datum)) := fun d =>
  match d with
  | .mapping entries => .valid entries
  | _ => .fail .notMapping

/-- The fields of a record. -/
abbrev Fields := List (Datum × Datum)

/-- A field that has to be there. -/
def required (name : String) (check : Check α) (fields : Fields) : Checked α :=
  match Datum.entry? name fields with
  | some d => (check d).under (.key name)
  | none => (Checked.fail .missing).under (.key name)

/-- A field with a default. -/
def optional (name : String) (default : α) (check : Check α) (fields : Fields) : Checked α :=
  match Datum.entry? name fields with
  | some d => (check d).under (.key name)
  | none => .valid default

/-- A field that has to be there under one of two names, the first before the second. -/
def requiredAs (name other : String) (check : Check α) (fields : Fields) : Checked α :=
  match Datum.entry? name fields with
  | some d => (check d).under (.key name)
  | none =>
    match Datum.entry? other fields with
    | some d => (check d).under (.key other)
    | none => (Checked.fail .missing).under (.key name)

/-- A field with a default that goes by one of two names. -/
def optionalAs (name other : String) (default : α) (check : Check α) (fields : Fields) :
    Checked α :=
  match Datum.entry? name fields with
  | some d => (check d).under (.key name)
  | none => optional other default check fields

/-- A record of a model. -/
def record (model : String) (check : Fields → Checked α) : Check α := fun d =>
  match d with
  | .mapping entries => check entries
  | _ => .fail (.notModel model)

/-- A record of one of several models, told apart by the text of its `kind` field. -/
def tagged (alternatives : List (String × (Fields → Checked α))) : Check α := fun d =>
  match d with
  | .mapping entries =>
    match Datum.entry? "kind" entries with
    | none => .fail (.noTag "kind")
    | some tag =>
      let chosen : Option (String × (Fields → Checked α)) := match tag with
        | .text s => alternatives.find? (·.1 == s)
        | _ => none
      match chosen with
      | some a => (a.2 entries).under (.key a.1)
      | none => .fail (.unknownTag tag.shown "kind"
          (alternatives.map fun (name, _) => Text.Quoted.ofString name))
  | _ => .fail .notAttributes

end Slipway.Validation
