import Slipway.Fault
import Slipway.Json.Basic

/-!
# `Slipway.Engine.Attributes`: what the engine tells of a container

The attributes of a container are a tree. Of its network settings the port table is of interest: for
every port the places at which it is published, of which one for version 4 addresses is preferred.
Of its state the start and the health are. What has another shape than it should is a defect, which
says what was asked of a value that does not have it.
-/

set_option autoImplicit false

namespace Slipway.Engine.Attributes

/-- What a value is called in messages about what it does not have. -/
def kindName : Json → String
  | .null => "NoneType"
  | .bool _ => "bool"
  | .int _ => "int"
  | .float _ => "float"
  | .text _ => "str"
  | .list _ => "list"
  | .object _ => "dict"

/-- Whether a value counts as nothing: null, false, a zero, or anything empty. -/
def isNothing : Json → Bool
  | .null => true
  | .bool b => !b
  | .int n => n == 0
  | .float x => x.isZero
  | .text s => s == ""
  | .list js => js.isEmpty
  | .object ms => ms.isEmpty

/-- The member of an object, which has to be there. -/
def need (name : String) (j : Json) : Except Fault Json :=
  match j with
  | .object _ =>
    match j.get? name with
    | some v => .ok v
    | none => .error (.defect (.missingKey name))
  | _ => .error (.defect (.noMembers (kindName j)))

/-- The member of an object, if it is there. -/
def want (name : String) (j : Json) : Except Fault (Option Json) :=
  match j with
  | .object _ => .ok (j.get? name)
  | _ => .error (.defect (.noOperation (kindName j) "get"))

/-- A number of a port, as a text or as a number. -/
def portNumber : Json → Except Fault Int
  | .text s =>
    match Text.Integer.literal s.toList with
    | .ok n => .ok n
    | .error e => .error (.defect (.notAnInteger s e))
  | .int n => .ok n
  | .bool b => .ok (if b then 1 else 0)
  | .float (.finite s m e) => .ok (Binary64.integerPart s m e)
  | .float (.infinite _) => .error (.defect .infiniteInteger)
  | .float .nan => .error (.defect .nanInteger)
  | j => .error (.defect (.noInteger (kindName j)))

/-- Whether a value is the text of a colon. -/
def isColon : Json → Bool
  | .text s => s == ":"
  | _ => false

/-- Whether a colon is in a value. -/
def hasColon : Json → Except Fault Bool
  | .text s => .ok (s.toList.contains ':')
  | .list js => .ok (js.any isColon)
  | .object ms => .ok (ms.any (·.1 == ":"))
  | j => .error (.defect (.noContents (kindName j)))

/-- Whether a place is at an address with colons, as those of version 6 are. -/
def isLong (place : Json) : Except Fault Bool := do
  match ← want "HostIp" place with
  | none => return false
  | some ip => hasColon ip

/-- The places among some that are not at an address with colons. -/
def shortPlaces : List Json → Except Fault (List Json)
  | [] => .ok []
  | place :: rest => do
    let long ← isLong place
    let others ← shortPlaces rest
    return if long then others else place :: others

/-- The place at which a port is reached: the first at a version 4 address, or else the first. -/
def chosen? (places : List Json) : Except Fault (Option Json) := do
  let short ← shortPlaces places
  return short.head?.or places.head?

/-- The items of a value that is not empty. Those of an object are its keys, those of a text its
characters. -/
def itemsOf : Json → Except Fault (List Json)
  | .list js => .ok js
  | .object ms => .ok (ms.map (.text ·.1))
  | .text s => .ok (s.toList.map fun c => .text (String.singleton c))
  | j => .error (.defect (.noItems (kindName j)))

/-- The host port of a port that is published at some places; none if there are none. -/
def hostPort (places : Json) : Except Fault (Option Int) :=
  if isNothing places then .ok none
  else do
    let places ← itemsOf places
    match ← chosen? places with
    | none => return none
    | some place => do
      let number ← need "HostPort" place
      let n ← portNumber number
      return some n

/-- The host ports of a table of ports, without those that are not published. -/
def hostPorts : List (String × Json) → Except Fault (List (String × Int))
  | [] => .ok []
  | (key, places) :: rest => do
    let port ← hostPort places
    let ports ← hostPorts rest
    return match port with
      | some n => (key, n) :: ports
      | none => ports

/-- The port table. -/
def ports (attributes : Json) : Except Fault (List (String × Int)) := do
  let network ← need "NetworkSettings" attributes
  let table ← need "Ports" network
  match table with
  | .object entries => hostPorts entries
  | _ =>
    if isNothing table then return []
    else .error (.defect (.noOperation (kindName table) "items"))

/-- When the container started, as the engine writes it. -/
def startedAt (attributes : Json) : Except Fault (Option String) := do
  let state ← need "State" attributes
  match ← want "StartedAt" state with
  | none => return none
  | some (.text s) => return some s
  | some j =>
    if isNothing j then return none
    else .error (.defect (.noOperation (kindName j) "startswith"))

/-- The health of the container; none if the engine does not check it. -/
def health (attributes : Json) : Except Fault (Option String) := do
  let state ← need "State" attributes
  let health := (← want "Health" state).getD .null
  if isNothing health then return none
  else
    let status ← need "Status" health
    return match status with
      | .text s => some s
      | _ => none

end Slipway.Engine.Attributes
