import Slipway.Yaml.Value

/-!
# `Slipway.Yaml.Document`: texts read as YAML

A text holds one document. Control characters and halves of surrogate pairs may not stand in it.
-/

set_option autoImplicit false

namespace Slipway.Yaml

/-- A text with one line feed for each pair of a carriage return and a line feed, and for each other
carriage return. -/
def unifyBreaks : List Char → List Char
  | '\r' :: '\n' :: rest => '\n' :: unifyBreaks rest
  | '\r' :: rest => '\n' :: unifyBreaks rest
  | c :: rest => c :: unifyBreaks rest
  | [] => []

/-- Whether a character may stand in a document. -/
def isAllowed (c : Char) : Bool :=
  let n := c.toNat
  c == '\t' || c == '\n' || c == '\r' || (0x20 ≤ n && n ≤ 0x7E) || n == 0x85
    || (0xA0 ≤ n && n ≤ 0xFFFD) || 0x10000 ≤ n

/-- The data that a text writes; an empty one writes nothing. -/
def parse (text : List Char) : Except Defect Datum := do
  let text := unifyBreaks text
  if !text.all isAllowed then .error .notYaml
  else
    let found ← Node.ofTokens (← tokens text)
    match found with
    | none => return .null
    | some n => n.value

end Slipway.Yaml
