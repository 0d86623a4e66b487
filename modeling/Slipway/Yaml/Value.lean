import Slipway.Binary64.Reading
import Slipway.Datum.Basic
import Slipway.Fault
import Slipway.Text.Base64
import Slipway.Text.Lowercase
import Slipway.Yaml.Node

/-!
# `Slipway.Yaml.Value`: nodes as data

The tag of a node says what its value is. A scalar is read in the notation of its kind. In a mapping
the last of several entries with equal keys counts, at the place of the first; numbers are equal by
what they denote, whatever their kinds.
-/

set_option autoImplicit false

namespace Slipway.Yaml

open Slipway.Text.Utf8 (Bytes)

namespace Scalar

/-! ### Numbers -/

/-- A text without its underscores. -/
def digitsOnly (s : List Char) : List Char := s.filter (· != '_')

/-- The integer that a text writes in decimal. -/
def decimalInteger (s : List Char) : Except Defect Int :=
  match Text.Integer.literal s with
  | .ok n => .ok n
  | .error e => .error (.notAnInteger (String.ofList s) e)

/-- The integer that a text writes in another base. -/
def integerIn (base : Nat) (mark : Char) (s : List Char) : Except Defect Int :=
  match Text.Integer.inBase? base mark s with
  | some n => .ok n
  | none => .error (.notANumeral base (String.ofList s))

/-- The integer that a text without a sign writes. A zero in front means octal notation, and colons
stand between the places of a number to base sixty. -/
def magnitude (s : List Char) : Except Defect Int :=
  match s with
  | [] => .error .emptyNumeral
  | ['0'] => .ok 0
  | '0' :: 'b' :: rest => integerIn 2 'b' rest
  | '0' :: 'x' :: rest => integerIn 16 'x' rest
  | '0' :: _ => integerIn 8 'o' s
  | s =>
    if s.contains ':' then
      ((Text.pieces ':' s).mapM decimalInteger).map fun places =>
        places.foldl (fun n place => n * 60 + place) 0
    else decimalInteger s

/-- The integer that a text writes. -/
def integer (s : List Char) : Except Defect Int :=
  let t := Text.Integer.sign (digitsOnly s)
  (magnitude t.2).map fun n => if t.1 then -n else n

/-- The number that a text writes in decimal. -/
def decimalNumber (s : List Char) : Except Defect Binary64 :=
  match Binary64.Reading.literal? s with
  | some x => .ok x
  | none => .error (.notANumber (String.ofList s))

/-- The sum of numbers times the powers of sixty, the first of which is given. Every step is
rounded. -/
def sumOfPlaces : Binary64 → Nat → List Binary64 → Binary64
  | sum, _, [] => sum
  | sum, power, place :: rest =>
    sumOfPlaces (sum.add (place.mul (.ofNat power))) (power * 60) rest

/-- The number that a text writes, which may be infinite or no number. -/
def number (s : List Char) : Except Defect Binary64 :=
  let small := (Text.Lowercase.ofString (String.ofList (digitsOnly s))).toList
  if small.isEmpty then .error .emptyNumeral
  else
    let t := Text.Integer.sign small
    let unsigned : Except Defect Binary64 :=
      if t.2 = ".inf".toList then .ok (.infinite false)
      else if t.2.contains ':' then
        ((Text.pieces ':' t.2).mapM decimalNumber).map fun places =>
          sumOfPlaces (.zero false) 1 places.reverse
      else decimalNumber t.2
    if t.2 = ".nan".toList then .ok .nan
    else unsigned.map fun x => if t.1 then x.neg else x

/-! ### Other kinds -/

/-- The words for what is true. -/
def trueWords : List String := ["yes", "true", "on"]

/-- The words for what is false. -/
def falseWords : List String := ["no", "false", "off"]

/-- The truth value of a word, in any case. -/
def truth (s : List Char) : Except Defect Bool :=
  let word := Text.Lowercase.ofString (String.ofList s)
  if trueWords.contains word then .ok true
  else if falseWords.contains word then .ok false
  else .error (.missingKey word)

/-- The date or timestamp that a text writes. -/
def moment (s : List Char) : Except Defect Datum :=
  match Moment.ofText? s with
  | none => .error .notAMoment
  | some m =>
    let date : Calendar.Date := ⟨m.year, m.month, m.day⟩
    let result := match m.time with
      | none => (Calendar.Iso.existing date).map Datum.date
      | some (hour, minute, second, micro) =>
        (Calendar.Iso.timestamp date ⟨hour, minute, second, micro⟩
          (m.offset.map (· * 60000000))).map Datum.timestamp
    result.mapError .notATimestamp

/-- The bytes that a text writes in sixty-four characters of ASCII. -/
def bytes (s : List Char) : Except Defect Bytes :=
  if s.all fun c => c.toNat < 0x80 then
    match Text.Base64.decode? s with
    | some b => .ok b
    | none => .error .notYaml
  else .error .notYaml

/-- Half of a surrogate pair in UTF-8, which no text contains. -/
def half : Bytes := [0xED, 0xA0, 0x80]

/-- A text. One that is not whole stands as bytes that are none. -/
def text (s : List Char) (isWhole : Bool) : Datum :=
  if isWhole then .text (String.ofList s) else .bytes half

/-- The value of a scalar, none if its tag is not of a scalar. -/
def value (tag : Tag) (s : List Char) (isWhole : Bool) : Except Defect Datum :=
  match tag with
  | .null => .ok .null
  | .bool => (truth s).map .bool
  | .int => (integer s).map .int
  | .float => (number s).map .float
  | .timestamp => moment s
  | .text => .ok (text s isWhole)
  | .binary => (bytes s).map .bytes
  | _ => .error .notYaml

end Scalar

/-! ### Keys -/

/-- What keys are compared by. -/
inductive Key where
  | null
  | integer (n : Int)
  /-- A number that is no integer. -/
  | number (x : Binary64)
  | text (s : String)
  | bytes (b : Bytes)
  | date (d : Calendar.Date)
  | instant (micros : Int)
  /-- A date and time on a clock of unknown offset. -/
  | clock (d : Calendar.Date) (t : Calendar.TimeOfDay)
deriving DecidableEq

namespace Key

/-- The key of a number. -/
def ofNumber (x : Binary64) : Key :=
  match x with
  | .finite s m e =>
    if Binary64.isIntegral m e then integer (Binary64.integerPart s m e) else number x
  | x => number x

/-- The key that a datum is. Lists, mappings and sets are none. -/
def ofDatum? : Datum → Option Key
  | .null => some null
  | .bool b => some (integer (if b then 1 else 0))
  | .int n => some (integer n)
  | .float x => some (ofNumber x)
  | .text s => some (text s)
  | .bytes b => some (bytes b)
  | .date d => some (date d)
  | .timestamp t => some (if t.offset.isSome then instant t.instant else clock t.date t.time)
  | _ => none

end Key

/-- Entries with one more, given the key of each. -/
def putEntry (k : Key) (key value : Datum) :
    List (Key × Datum × Datum) → List (Key × Datum × Datum)
  | [] => [(k, key, value)]
  | (k₀, key₀, value₀) :: rest =>
    if k₀ = k then (k₀, key₀, value) :: rest else (k₀, key₀, value₀) :: putEntry k key value rest

/-- Entries by their keys, each once. -/
def keyed (entries : List (Datum × Datum)) : Except Defect (List (Datum × Datum)) :=
  let put := fun (done : List (Key × Datum × Datum)) (entry : Datum × Datum) =>
    match Key.ofDatum? entry.1 with
    | some k => Except.ok (putEntry k entry.1 entry.2 done)
    | none => .error Defect.notYaml
  (entries.foldlM put []).map fun done => done.map (·.2)

/-! ### Nodes -/

/-- Whether a node is the key of the value that stands for a mapping. -/
def Node.isDefault : Node → Bool
  | .scalar .default _ _ => true
  | _ => false

mutual

/-- The content of a scalar, or of the scalar that stands for a mapping. -/
def Node.content : Node → Except Defect (List Char × Bool)
  | .scalar _ content isWhole => .ok (content, isWhole)
  | .sequence _ _ => .error .notYaml
  | .mapping _ entries => defaultContent entries

/-- The content of the value that stands for a mapping of some entries. -/
def defaultContent : List (Node × Node) → Except Defect (List Char × Bool)
  | [] => .error .notYaml
  | (key, value) :: rest => if key.isDefault then value.content else defaultContent rest

end

mutual

/-- The value of a node. -/
def Node.value : Node → Except Defect Datum
  | .scalar tag content isWhole => Scalar.value tag content isWhole
  | .sequence .sequence items => (values items).map .list
  | .sequence .orderedMapping items => (pairs items).map .list
  | .sequence .pairs items => (pairs items).map .list
  | .sequence _ _ => .error .notYaml
  | .mapping .mapping entries =>
    match entryValues entries with
    | .error e => .error e
    | .ok entries => (keyed entries).map .mapping
  | .mapping .set entries =>
    match entryValues entries with
    | .error e => .error e
    | .ok entries => (keyed entries).map fun entries => .set (entries.map (·.1))
  | .mapping tag entries =>
    match defaultContent entries with
    | .error e => .error e
    | .ok (content, isWhole) => Scalar.value tag content isWhole

/-- The values of nodes. -/
def values : List Node → Except Defect (List Datum)
  | [] => .ok []
  | n :: rest =>
    match n.value with
    | .error e => .error e
    | .ok v => (values rest).map (v :: ·)

/-- The values of keys and values. -/
def entryValues : List (Node × Node) → Except Defect (List (Datum × Datum))
  | [] => .ok []
  | (key, value) :: rest =>
    match key.value with
    | .error e => .error e
    | .ok k =>
      match value.value with
      | .error e => .error e
      | .ok v => (entryValues rest).map ((k, v) :: ·)

/-- The pairs of a key and a value that mappings of one entry write. -/
def pairs : List Node → Except Defect (List Datum)
  | [] => .ok []
  | .mapping _ [(key, value)] :: rest =>
    match key.value with
    | .error e => .error e
    | .ok k =>
      match value.value with
      | .error e => .error e
      | .ok v => (pairs rest).map (.list [k, v] :: ·)
  | _ :: _ => .error .notYaml

end

end Slipway.Yaml
