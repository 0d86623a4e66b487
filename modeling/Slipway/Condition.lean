import Slipway.Binary64.Basic
import Slipway.Port
import Slipway.Text.Integer
import Slipway.Text.Quoted

/-!
# `Slipway.Condition`: when a container counts as ready

A condition is a message in the log, an answer over HTTP, a fixed delay, the verdict of the
container's own healthcheck, or several conditions that must all hold. `describe` names a condition
in messages. A condition with a number that is too long to be written has no name
(`isDescribable`).
-/

set_option autoImplicit false

namespace Slipway

/-- An output stream of a container. -/
inductive Stream where
  | stdout
  | stderr
deriving DecidableEq, Repr, Inhabited

namespace Stream

/-- The streams in the order in which messages list them. -/
def all : List Stream := [stdout, stderr]

/-- The name of a stream. -/
def name : Stream → String
  | stdout => "stdout"
  | stderr => "stderr"

/-- The stream with a name. -/
def ofName? (s : String) : Option Stream := all.find? (·.name == s)

end Stream

/-- A text that has to appear in a stream of the log. -/
structure LogMessage where
  stream : Stream
  text : String
  text_ne : text ≠ "" := by decide
deriving DecidableEq, Repr

namespace LogMessage

/-- The message in words. -/
def describe (m : LogMessage) : String :=
  m.stream.name ++ " message " ++ Text.Quoted.ofString m.text

end LogMessage

/-- Plain or encrypted HTTP. -/
inductive Scheme where
  | http
  | https
deriving DecidableEq, Repr, Inhabited

namespace Scheme

/-- The schemes in the order in which messages list them. -/
def all : List Scheme := [http, https]

/-- The name of a scheme. -/
def name : Scheme → String
  | http => "http"
  | https => "https"

/-- The scheme with a name. -/
def ofName? (s : String) : Option Scheme := all.find? (·.name == s)

end Scheme

/-- An HTTP request that has to be answered as expected. -/
structure HttpProbe where
  path : String
  port : Port
  expectedStatus : Int
  expectedBody : Option String
  method : String
  scheme : Scheme
  verifyTls : Bool
  headers : List (String × String)
  pollInterval : Option Binary64
deriving DecidableEq, Repr

namespace HttpProbe

/-- The probe in words. -/
def describe (h : HttpProbe) : String :=
  "HTTP " ++ h.method ++ " " ++ h.path ++ " on " ++ h.port.key ++ " -> "
    ++ toString h.expectedStatus

/-- A path that starts with a slash; one is put in front if there is none. -/
def rooted (path : String) : String :=
  if path.toList.head? = some '/' then path else "/" ++ path

/-- A probe of a path and port with the usual expectations: `GET`, status 200. -/
def get (path : String) (port : Port) : HttpProbe where
  path := rooted path
  port := port
  expectedStatus := 200
  expectedBody := none
  method := "GET"
  scheme := .http
  verifyTls := true
  headers := []
  pollInterval := none

end HttpProbe

/-- A condition of readiness. -/
inductive Condition where
  | log (message : LogMessage)
  | http (probe : HttpProbe)
  | delay (millis : Nat)
  | healthcheck
  | all (members : List Condition)
  /-- A condition of a kind that nothing here can evaluate, by its name. -/
  | foreign (label : String)
deriving Repr

namespace Condition

instance : Inhabited Condition := ⟨.healthcheck⟩

mutual

/-- The condition in words. -/
def describe : Condition → String
  | log m => m.describe
  | http h => h.describe
  | delay n => "fixed delay of " ++ toString n ++ "ms"
  | healthcheck => "runtime healthcheck"
  | all members => "all of [" ++ ", ".intercalate (describeAll members) ++ "]"
  | foreign label => label

/-- The conditions in words. -/
def describeAll : List Condition → List String
  | [] => []
  | c :: rest => describe c :: describeAll rest

end

mutual

/-- Whether the condition can be put in words. -/
def isDescribable : Condition → Bool
  | http h => Text.Integer.isWritable h.expectedStatus
  | delay n => Text.Integer.isWritable n
  | all members => areDescribable members
  | _ => true

/-- Whether all of the conditions can be put in words. -/
def areDescribable : List Condition → Bool
  | [] => true
  | c :: rest => isDescribable c && areDescribable rest

end

mutual

/-- Whether two conditions are the same, with intervals compared as numbers. -/
def same : Condition → Condition → Bool
  | log m, log n => m == n
  | http h, http k =>
    { h with pollInterval := none } == { k with pollInterval := none }
      && (match h.pollInterval, k.pollInterval with
        | none, none => true
        | some a, some b => a.eqv b
        | _, _ => false)
  | delay m, delay n => m == n
  | healthcheck, healthcheck => true
  | all ms, all ns => sameAll ms ns
  | foreign a, foreign b => a == b
  | _, _ => false

/-- Whether two lists of conditions are the same. -/
def sameAll : List Condition → List Condition → Bool
  | [], [] => true
  | c :: cs, d :: ds => same c d && sameAll cs ds
  | _, _ => false

end

/-- The text has to appear on standard output. -/
def onStdout (text : String) (h : text ≠ "" := by decide) : Condition := .log ⟨.stdout, text, h⟩

mutual

/-- The conditions at the leaves, in order. A conjunction that cannot be put in words is a leaf
itself, since nothing is asked of its members. -/
def leaves : Condition → List Condition
  | all members => if areDescribable members then leavesAll members else [all members]
  | c => [c]

/-- The conditions at the leaves of several conditions. -/
def leavesAll : List Condition → List Condition
  | [] => []
  | c :: rest => leaves c ++ leavesAll rest

end

end Condition
end Slipway
