import Slipway.Binary64.Reading
import Slipway.Calendar.Lenient
import Slipway.Datum.Basic
import Slipway.Text.Path

/-!
# `Slipway.Validation.Scalar`: checks of single values

Each check says what it takes besides a value of its own kind. Texts may come as bytes and bytes as
text; numbers and truth values may come as text; a truth value is the integer 0 or 1.
-/

set_option autoImplicit false

namespace Slipway.Validation

open Slipway.Text.Utf8 (Bytes)

/-- A check of a datum. -/
abbrev Check (α : Type) := Datum → Checked α

/-- The characters of a datum that is a text or bytes of one: `none` if it is neither. -/
def chars? (notText : IssueKind) : Datum → Option (Checked (List Char))
  | .text s => some (.valid s.toList)
  | .bytes b => some (match Text.Utf8.decode b with
    | .ok s => .valid s
    | .error _ => .fail notText)
  | _ => none

/-- A text. -/
def string : Check String := fun d =>
  match chars? .notUnicode d with
  | some s => s.map String.ofList
  | none => .fail .notString

/-- A text that is not empty. -/
def nonemptyString : Check { s : String // s ≠ "" } := fun d =>
  (string d).andThen fun s =>
    if h : s ≠ "" then .valid ⟨s, h⟩ else .fail (.stringTooShort 1)

/-- Bytes. -/
def bytes : Check Bytes
  | .bytes b => .valid b
  | .text s => .valid (Text.Utf8.ofString s)
  | _ => .fail .notBytes

/-- Whether a number lies strictly within 64-bit integers. -/
def isSmall (x : Binary64) : Bool :=
  Binary64.lt (Binary64.ofInt (-9223372036854775808)) x
    && Binary64.lt x (Binary64.ofInt 9223372036854775808)

/-- The integer that a number is. -/
def integerOfNumber : Binary64 → Checked Int
  | .finite s m e =>
    if !Binary64.isIntegral m e then .fail .fractionalInteger
    else if isSmall (.finite s m e) then .valid (Binary64.integerPart s m e)
    else .fail .integerSize
  | _ => .fail .notFinite

/-- An integer. -/
def integer : Check Int
  | .int n => .valid n
  | .bool b => .valid (if b then 1 else 0)
  | .float x => integerOfNumber x
  | d =>
    match chars? .integerText d with
    | none => .fail .notInteger
    | some s => s.andThen fun cs =>
      if Text.Integer.maxDigits < (Text.trim Text.isPlainBlank cs).length then .fail .integerSize
      else match Text.Integer.plain? cs with
      | some n => .valid n
      | none => .fail .integerText

/-- An integer not below a bound. -/
def integerFrom (least : Int) : Check Int := fun d =>
  (integer d).andThen fun n => if least ≤ n then .valid n else .fail (.below least)

/-- A natural number. -/
def natural : Check Nat := fun d => (integerFrom 0 d).map Int.toNat

/-- A decimal text with blanks around it, or one with single underscores inside. -/
def numberOfText (cs : List Char) : Checked Binary64 :=
  match Binary64.Reading.decimal? (Text.trim Text.isPlainBlank cs) with
  | some x => .valid x
  | none =>
    let doubled := (cs.zip (cs.drop 1)).any fun p => p.1 == '_' && p.2 == '_'
    if cs.head? = some '_' || cs.getLast? = some '_' || doubled then .fail .numberText
    else match Binary64.Reading.decimal? (cs.filter (· != '_')) with
    | some x => .valid x
    | none => .fail .numberText

/-- A number. An integer beyond the format is none. -/
def number : Check Binary64
  | .float x => .valid x
  | .int n =>
    match Binary64.ofInt n with
    | .infinite _ => .fail .notNumber
    | x => .valid x
  | .bool b => .valid (Binary64.ofNat (if b then 1 else 0))
  | d =>
    match chars? .numberText d with
    | none => .fail .notNumber
    | some s => s.andThen numberOfText

/-- A number greater than zero. -/
def positiveNumber : Check Binary64 := fun d =>
  (number d).andThen fun x =>
    if Binary64.lt (Binary64.zero false) x then .valid x else .fail (.notAbove 0)

/-- The words for false and true. -/
def falseWords : List String := ["0", "off", "f", "false", "n", "no"]
def trueWords : List String := ["1", "on", "t", "true", "y", "yes"]

/-- A truth value. -/
def boolean : Check Bool
  | .bool b => .valid b
  | .int n =>
    if n = 0 then .valid false
    else if n = 1 then .valid true
    else if -9223372036854775808 ≤ n ∧ n ≤ 9223372036854775807 then .fail .booleanText
    else .fail .notBoolean
  | .float x =>
    match integerOfNumber x with
    | .valid n =>
      if n = 0 then .valid false else if n = 1 then .valid true else .fail .booleanText
    | .invalid _ => .fail .notBoolean
  | d =>
    match chars? .booleanText d with
    | none => .fail .notBoolean
    | some s => s.andThen fun cs =>
      let word := String.ofList (cs.map Char.toLower)
      if falseWords.contains word then .valid false
      else if trueWords.contains word then .valid true
      else .fail .booleanText

/-- One of several named values. -/
def named {α : Type} (all : List α) (name : α → String) : Check α := fun d =>
  let expected := all.map fun a => Text.Quoted.ofString (name a)
  match d with
  | .text s =>
    match all.find? (name · == s) with
    | some a => .valid a
    | none => .fail (.notOneOf expected)
  | _ => .fail (.notOneOf expected)

/-- The one text that a field may have. -/
def exactly (word : String) : Check Unit := fun d =>
  (named [word] id d).map fun _ => ()

/-- A timestamp. -/
def timestamp : Check Calendar.Timestamp
  | .timestamp t => .valid t
  | .date d => .valid ⟨d, .midnight, none⟩
  | .int n =>
    match Calendar.Lenient.ofNumber n 0 with
    | .ok t => .valid t
    | .error e => .fail (.timestampRange e)
  | .float (.finite s m e) =>
    let micros := Binary64.scaledInt 1000000 s m e
    match Calendar.Lenient.ofNumber (Int.fdiv micros 1000000) (Int.fmod micros 1000000).toNat with
    | .ok t => .valid t
    | .error e => .fail (.timestampRange e)
  | .float .nan => .fail (.timestampRange .notANumber)
  | .float (.infinite s) => .fail (.timestampRange (if s then .tooSmall else .tooLarge))
  | d =>
    match chars? (.timestampText .tooShort) d with
    | none => .fail .notTimestamp
    | some s => s.andThen fun cs =>
      match Calendar.Lenient.parse cs with
      | .ok t => .valid t
      | .error e => .fail (.timestampText e)

/-- A path, in its normal form. -/
def path : Check String
  | .text s => .valid (String.ofList (Text.Path.normalise s.toList))
  | _ => .fail .notPath

/-- A value or null. -/
def nullable {α : Type} (check : Check α) : Check (Option α)
  | .null => .valid none
  | d => (check d).map some

end Slipway.Validation
