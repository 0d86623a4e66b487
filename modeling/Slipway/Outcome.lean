import Slipway.Condition
import Slipway.Container

/-!
# `Slipway.Outcome`: how a start ended

A lifecycle goes through phases and ends ready or failed. Its outcome keeps the phases it went
through, the container if it is ready, and the failure if it is not.
-/

set_option autoImplicit false

namespace Slipway

open Slipway.Text.Utf8 (Bytes)

/-- What a command inside a container gave back. -/
structure ExecResult where
  exitCode : Option Int
  stdout : Bytes
  stderr : Bytes
deriving DecidableEq, Repr

namespace ExecResult

/-- The text of an output stream, with replacement characters where it is no text. -/
def output (r : ExecResult) : Stream → String
  | .stdout => Text.Utf8.toStringLossy r.stdout
  | .stderr => Text.Utf8.toStringLossy r.stderr

/-- Whether the exit code can be written into a message. -/
def isTellable (r : ExecResult) : Bool := r.exitCode.all Text.Integer.isWritable

/-- The result of a process that wrote nothing. Its exit code is a byte. -/
def silent (code : UInt8) : ExecResult := ⟨some code.toNat, [], []⟩

/-- The code of a process has few digits. -/
theorem isTellable_silent (code : UInt8) : (silent code).isTellable = true := by
  have hbyte : ∀ n < 256, Text.Integer.isWritable (n : Nat) = true := by decide +kernel
  exact hbyte code.toNat code.toNat_lt

end ExecResult

/-- The phases of a lifecycle. -/
inductive Phase where
  | created
  | started
  | preReadyExec
  | evaluating
  | postStartExec
  | ready
  | failed
deriving DecidableEq, Repr, Inhabited

namespace Phase

/-- The phases in the order in which messages list them. -/
def all : List Phase :=
  [created, started, preReadyExec, evaluating, postStartExec, ready, failed]

/-- The name of a phase. -/
def name : Phase → String
  | created => "created"
  | started => "started"
  | preReadyExec => "pre_ready_exec"
  | evaluating => "evaluating"
  | postStartExec => "post_start_exec"
  | ready => "ready"
  | failed => "failed"

/-- The phase with a name. -/
def ofName? (s : String) : Option Phase := all.find? (·.name == s)

end Phase

/-- How a start ended. -/
structure Outcome where
  /-- Ready, and not failed. -/
  ok : Bool
  containerId : Option String
  container : Option Container
  failure : Option Failure
  history : List Phase
deriving DecidableEq, Repr

namespace Outcome

/-- The phase in which the lifecycle ended. -/
def phase (o : Outcome) : Phase := if o.ok then .ready else .failed

/-- The container, or the failure; a failure that no container is there if there is neither. -/
def unwrap (o : Outcome) : Except Failure Container :=
  match o.failure, o.container with
  | some f, _ => .error f
  | none, some c => .ok c
  | none, none =>
    .error (.general ("Lifecycle ended in " ++ o.phase.name ++ " without a container state"))

end Outcome
end Slipway
