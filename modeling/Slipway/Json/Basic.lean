import Slipway.Binary64.Basic

/-!
# `Slipway.Json.Basic`: JSON values

Integers and floating-point numbers are kept apart, as their texts are: a number with a point or an
exponent is a floating-point number. An object keeps its members in order.
-/

set_option autoImplicit false

namespace Slipway

/-- A JSON value. -/
inductive Json where
  | null
  | bool (b : Bool)
  | int (n : Int)
  | float (x : Binary64)
  | text (s : String)
  | list (items : List Json)
  | object (members : List (String × Json))
deriving Inhabited, Repr

namespace Json

/-- The member of an object with a name, the last one if several have it. -/
def get? (name : String) : Json → Option Json
  | object members => (members.reverse.find? (·.1 == name)).map (·.2)
  | _ => none

end Json
end Slipway
