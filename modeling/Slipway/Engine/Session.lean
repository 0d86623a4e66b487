import Slipway.Engine.Request
import Slipway.Json.Basic
import Slipway.Outcome

/-!
# `Slipway.Engine.Session`: requests and their answers

A session records the requests that an engine is sent. It knows in advance what the engine says of
its container, and which requests it refuses: for every kind of request a queue of turns, one of
which each request of that kind uses up. A call is a computation on a session: it gives a value or a
fault, and the session after it.
-/

set_option autoImplicit false

namespace Slipway.Engine

open Slipway.Text.Utf8 (Bytes)

/-- What the engine says of a container. -/
structure Facts where
  id : String
  status : String
  attributes : Json
  logs : Bytes
  /-- What a command writes to each of its streams, if it writes at all. -/
  output : List (Option Bytes)
  exitCode : Option Int

/-- A session. A turn is a refusal, or nothing if the request is granted; so are all turns after the
last of a queue. -/
structure Session where
  facts : Facts
  turns : List (Operation × List (Option Fault))
  sent : List Request

namespace Session

/-- The queue of a kind of requests. -/
def queue (s : Session) (o : Operation) : List (Option Fault) := (s.turns.lookup o).getD []

/-- The queues after one turn of a kind. -/
def useTurn (o : Operation) (turns : List (Operation × List (Option Fault))) :
    List (Operation × List (Option Fault)) :=
  turns.map fun t => if t.1 = o then (t.1, t.2.drop 1) else t

end Session

/-- A computation on a session. -/
def Call (α : Type) : Type := Session → Except Fault α × Session

namespace Call

variable {α β : Type}

/-- Gives a value and sends nothing. -/
def give (a : α) : Call α := fun s => (.ok a, s)

/-- Makes one call and then another that depends on its value. A fault ends it. -/
def andThen (x : Call α) (f : α → Call β) : Call β := fun s =>
  match x s with
  | (.ok a, t) => f a t
  | (.error e, t) => (.error e, t)

instance : Monad Call where
  pure := give
  bind := andThen

instance : Inhabited (Call α) := ⟨fun s => (.error default, s)⟩

/-- Ends with a fault. -/
def fail (e : Fault) : Call α := fun s => (.error e, s)

/-- Ends with the fault of a result, or gives its value. -/
def ofExcept (r : Except Fault α) : Call α := fun s => (r, s)

/-- Makes a call and gives its result as a value. -/
def attempt (x : Call α) : Call (Except Fault α) := fun s =>
  let r := x s
  (.ok r.1, r.2)

/-- What the engine says of the container. -/
def facts : Call Facts := fun s => (.ok s.facts, s)

/-- Sends a request. It is refused if its turn says so. -/
def send (r : Request) : Call Unit := fun s =>
  let turn := (s.queue r.operation).head?.join
  let after := { s with turns := Session.useTurn r.operation s.turns, sent := s.sent ++ [r] }
  match turn with
  | some e => (.error e, after)
  | none => (.ok (), after)

/-- Makes a call in which a refusal of the engine is a failure. -/
def refusedAs (failure : String → Failure) (x : Call α) : Call α := do
  match ← attempt x with
  | .error (.engine refusal text) =>
    if refusal.isAnswer then fail (.failure (failure text)) else fail (.engine refusal text)
  | r => ofExcept r

/-- Makes a call in which a refusal does not matter, if it is one of those that pass a test. -/
def tolerating (passes : EngineRefusal → Bool) (x : Call Unit) : Call Unit := do
  match ← attempt x with
  | .error (.engine refusal text) =>
    if passes refusal then give () else fail (.engine refusal text)
  | r => ofExcept r

end Call
end Slipway.Engine
