import Slipway.Datum.Shown
import Slipway.Lifecycle

/-!
# `Slipway.Handle`: a container that is ready

What can be done with a container once it is ready: ask for its ports, run commands, read its log,
stop and remove it.
-/

set_option autoImplicit false

namespace Slipway

open Slipway.Text.Utf8 (Bytes)
open Slipway.World (Act)

/-- A ready container. -/
structure Handle where
  spec : Spec
  container : Container
  settings : Settings

namespace Handle

/-- The handle of an outcome, or its failure. -/
def ofOutcome (settings : Settings) (spec : Spec) (o : Outcome) : Except Fault Handle :=
  match o.unwrap with
  | .ok c => .ok ⟨spec, c, settings⟩
  | .error f => .error (.failure f)

/-- What commands are run against: there is no deadline any more. -/
def target (h : Handle) : Injection.Target := ⟨h.container, h.settings, none⟩

/-- Runs a command. -/
def exec (h : Handle) (c : Command) : Act ExecResult := Injection.exec h.target c

/-- All that a stream of the log holds. -/
def logs (_h : Handle) (stream : Stream) : Act Bytes := Act.snapshot stream

/-- Stops the container. -/
def stop (h : Handle) : Act Unit := Act.stop h.container.id

/-- Removes the container. -/
def remove (h : Handle) : Act Unit := Act.remove h.container.id

/-- The handle in words. -/
def describe (h : Handle) : String :=
  let ports := Datum.mapping (h.container.ports.map fun e => (.text e.1, .int e.2))
  "<RunningContainer " ++ shortId h.container.id ++ " " ++ h.spec.imageRef ++ " ports="
    ++ ports.quoted ++ ">"

/-- Uses a handle and removes the container afterwards, whatever came of it. A fault of the removal
comes before one of the use. -/
def within {α : Type} (h : Handle) (body : Act α) : Act α := do
  let r ← Act.attempt body
  h.remove
  Act.ofExcept r

end Handle
end Slipway
