/-!
# `Slipway.Issue`: what is wrong with a piece of data, and where

An issue names one thing that is wrong and the place of it: the names of fields, the positions of
items and the labels of alternatives on the way from the outside in. A check of a whole record
collects the issues of all its fields in the order of their declaration.
-/

set_option autoImplicit false

namespace Slipway

/-- One step into a piece of data. -/
inductive Place where
  | key (name : String)
  | index (i : Int)
deriving DecidableEq, Repr

/-- Why a text is no date. -/
inductive DateFault where
  | tooShort
  | yearCharacter
  | monthCharacter
  | dayCharacter
  | separator
  | monthRange
  | dayRange
  | extraCharacters
  | tooLarge
  | tooSmall
  | notANumber
deriving DecidableEq, Repr

/-- What can be wrong with a piece of data. -/
inductive IssueKind where
  | missing
  | notString
  | notUnicode
  | stringTooShort (least : Nat)
  | notInteger
  | integerText
  | integerSize
  | fractionalInteger
  | notFinite
  | below (least : Int)
  | above (greatest : Int)
  | notAbove (bound : Int)
  | notNumber
  | numberText
  | notBoolean
  | booleanText
  | notBytes
  | notTuple
  | notList
  | notMapping
  | notSet
  | tooFewItems (what : String) (least actual : Nat)
  /-- The data is none of the expected texts, which are given as they are shown. -/
  | notOneOf (expected : List String)
  /-- The same for the members of an enumeration. -/
  | notAMember (expected : List String)
  | noTag (field : String)
  | unknownTag (tag field : String) (expected : List String)
  | notModel (name : String)
  | notAttributes
  | notCallable
  | notInstance (name : String)
  | notTimestamp
  | timestampText (fault : DateFault)
  | timestampRange (fault : DateFault)
  | notPath
  | frozen
  /-- A rule of the model is broken. -/
  | rule (text : String)
deriving DecidableEq, Repr

/-- One thing that is wrong, and where. -/
structure Issue where
  kind : IssueKind
  place : List Place
deriving DecidableEq, Repr

namespace DateFault

/-- The words for a fault. -/
def text : DateFault → String
  | tooShort => "input is too short"
  | yearCharacter => "invalid character in year"
  | monthCharacter => "invalid character in month"
  | dayCharacter => "invalid character in day"
  | separator => "invalid date separator, expected `-`"
  | monthRange => "month value is outside expected range of 1-12"
  | dayRange => "day value is outside expected range"
  | extraCharacters => "unexpected extra characters at the end of the input"
  | tooLarge => "dates after 9999 are not supported as unix timestamps"
  | tooSmall => "dates before 0000 are not supported as unix timestamps"
  | notANumber => "NaN values not permitted"

end DateFault

namespace IssueKind

/-- Texts as alternatives: commas between them, and `or` before the last. -/
def alternatives : List String → String
  | [] => ""
  | [a] => a
  | [a, b] => a ++ " or " ++ b
  | a :: rest => a ++ ", " ++ alternatives rest

/-- The short name of a kind of issue. -/
def code : IssueKind → String
  | missing => "missing"
  | notString => "string_type"
  | notUnicode => "string_unicode"
  | stringTooShort _ => "string_too_short"
  | notInteger => "int_type"
  | integerText => "int_parsing"
  | integerSize => "int_parsing_size"
  | fractionalInteger => "int_from_float"
  | notFinite => "finite_number"
  | below _ => "greater_than_equal"
  | above _ => "less_than_equal"
  | notAbove _ => "greater_than"
  | notNumber => "float_type"
  | numberText => "float_parsing"
  | notBoolean => "bool_type"
  | booleanText => "bool_parsing"
  | notBytes => "bytes_type"
  | notTuple => "tuple_type"
  | notList => "list_type"
  | notMapping => "dict_type"
  | notSet => "set_type"
  | tooFewItems _ _ _ => "too_short"
  | notOneOf _ => "literal_error"
  | notAMember _ => "enum"
  | noTag _ => "union_tag_not_found"
  | unknownTag _ _ _ => "union_tag_invalid"
  | notModel _ => "model_type"
  | notAttributes => "model_attributes_type"
  | notCallable => "callable_type"
  | notInstance _ => "is_instance_of"
  | notTimestamp => "datetime_type"
  | timestampText _ => "datetime_from_date_parsing"
  | timestampRange _ => "datetime_parsing"
  | notPath => "path_type"
  | frozen => "frozen_instance"
  | rule _ => "value_error"

/-- What a message says of an issue. -/
def message : IssueKind → String
  | missing => "Field required"
  | notString => "Input should be a valid string"
  | notUnicode => "Input should be a valid string, unable to parse raw data as a unicode string"
  | stringTooShort n =>
    "String should have at least " ++ toString n ++ (if n = 1 then " character" else " characters")
  | notInteger => "Input should be a valid integer"
  | integerText => "Input should be a valid integer, unable to parse string as an integer"
  | integerSize => "Unable to parse input string as an integer, exceeded maximum size"
  | fractionalInteger => "Input should be a valid integer, got a number with a fractional part"
  | notFinite => "Input should be a finite number"
  | below n => "Input should be greater than or equal to " ++ toString n
  | above n => "Input should be less than or equal to " ++ toString n
  | notAbove n => "Input should be greater than " ++ toString n
  | notNumber => "Input should be a valid number"
  | numberText => "Input should be a valid number, unable to parse string as a number"
  | notBoolean => "Input should be a valid boolean"
  | booleanText => "Input should be a valid boolean, unable to interpret input"
  | notBytes => "Input should be a valid bytes"
  | notTuple => "Input should be a valid tuple"
  | notList => "Input should be a valid list"
  | notMapping => "Input should be a valid dictionary"
  | notSet => "Input should be a valid set"
  | tooFewItems what n k =>
    what ++ " should have at least " ++ toString n ++ (if n = 1 then " item" else " items")
      ++ " after validation, not " ++ toString k
  | notOneOf expected => "Input should be " ++ alternatives expected
  | notAMember expected => "Input should be " ++ alternatives expected
  | noTag field => "Unable to extract tag using discriminator '" ++ field ++ "'"
  | unknownTag tag field expected =>
    "Input tag '" ++ tag ++ "' found using '" ++ field
      ++ "' does not match any of the expected tags: " ++ ", ".intercalate expected
  | notModel name => "Input should be a valid dictionary or instance of " ++ name
  | notAttributes => "Input should be a valid dictionary or object to extract fields from"
  | notCallable => "Input should be callable"
  | notInstance name => "Input should be an instance of " ++ name
  | notTimestamp => "Input should be a valid datetime"
  | timestampText fault => "Input should be a valid datetime or date, " ++ fault.text
  | timestampRange fault => "Input should be a valid datetime, " ++ fault.text
  | notPath => "Input is not a valid path"
  | frozen => "Instance is frozen"
  | rule text => "Value error, " ++ text

end IssueKind

namespace Issue

/-- An issue with the data itself. -/
def here (kind : IssueKind) : Issue := ⟨kind, []⟩

/-- An issue seen from one step further out. -/
def under (p : Place) (i : Issue) : Issue := { i with place := p :: i.place }

end Issue

/-- The result of a check: a value, or everything that is wrong. -/
inductive Checked (α : Type) where
  | valid (value : α)
  | invalid (issues : List Issue)

namespace Checked

variable {α β : Type}

instance : Inhabited (Checked α) := ⟨.invalid []⟩

/-- The check fails with one issue. -/
def fail (kind : IssueKind) : Checked α := .invalid [.here kind]

/-- Applies a function to the value. -/
def map (f : α → β) : Checked α → Checked β
  | valid a => valid (f a)
  | invalid is => invalid is

/-- Both checks count: if either fails, the issues of both are collected, in order. -/
def apply (f : Checked (α → β)) (x : Checked α) : Checked β :=
  match f, x with
  | valid f, valid a => valid (f a)
  | valid _, invalid js => invalid js
  | invalid is, valid _ => invalid is
  | invalid is, invalid js => invalid (is ++ js)

instance : Applicative Checked where
  pure := valid
  map := map
  seq f x := apply f (x ())

/-- A second check of the value, made only if the first succeeds. -/
def andThen (x : Checked α) (f : α → Checked β) : Checked β :=
  match x with
  | valid a => f a
  | invalid is => invalid is

/-- The check seen from one step further out. -/
def under (p : Place) : Checked α → Checked α
  | valid a => valid a
  | invalid is => invalid (is.map (·.under p))

/-- The issues of a check, none if it succeeds. -/
def issues : Checked α → List Issue
  | valid _ => []
  | invalid is => is

/-- The value of a check that succeeds. -/
def value? : Checked α → Option α
  | valid a => some a
  | invalid _ => none

/-- A list of checks as a check of the list: the issues of all items count. -/
def all : List (Checked α) → Checked (List α)
  | [] => valid []
  | x :: rest => apply (map List.cons x) (all rest)

end Checked
end Slipway
