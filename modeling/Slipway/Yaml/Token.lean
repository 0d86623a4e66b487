/-!
# `Slipway.Yaml.Token`: tokens of YAML texts

Indicators, the starts and ends of collections that indentation shows, the properties of nodes and
scalars.
-/

set_option autoImplicit false

namespace Slipway.Yaml

/-- What a directive says. -/
inductive Directive where
  | version (major : Nat)
  | handle (handle lead : String)
  | other
deriving DecidableEq, Repr

/-- A scalar as it is written. -/
structure Scalar where
  content : List Char
  /-- Written without quotes and not as a block. -/
  isPlain : Bool
  /-- Whether the content is all there: halves of surrogate pairs are no characters. -/
  isWhole : Bool
deriving DecidableEq, Repr

/-- A token. -/
inductive Token where
  | directive (d : Directive)
  | documentStart
  | documentEnd
  | streamEnd
  | blockSequenceStart
  | blockMappingStart
  | blockEnd
  | flowSequenceStart
  | flowSequenceEnd
  | flowMappingStart
  | flowMappingEnd
  | flowEntry
  | blockEntry
  | key
  | value
  | reference (name : List Char)
  | anchor (name : List Char)
  | tag (handle : Option String) (rest : String)
  | scalar (s : Scalar)
deriving DecidableEq, Repr

end Slipway.Yaml
