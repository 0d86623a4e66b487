import Slipway.Readiness.Evaluation
import Slipway.Rendering
import Slipway.Scanner
import Slipway.World.Act

/-!
# `Slipway.Injection`: running the steps of a spec

Steps run one after the other, each after the last has settled; the first that fails ends the list.
A factory is called when its turn comes. A command without a completion may fail as it likes; one
with a completion is held to it. After either, the conditions that the command names are waited for.
-/

set_option autoImplicit false

namespace Slipway.Injection

open Slipway.World (Act)

/-- What steps are run against: a started container, the settings, and a deadline if there is one.
-/
structure Target where
  container : Container
  settings : Settings
  deadline : Option Deadline

/-- Waits for conditions. -/
def await (t : Target) (conditions : List Condition) (d : Deadline) : Act Unit := fun s =>
  let e := Readiness.waitAll ⟨t.container, s.box, s.world, t.settings⟩ conditions d s.now
  ((match e.fault with
    | none => .ok ()
    | some f => .error f),
   { s with now := e.stop, trace := s.trace ++ e.trace })

/-- How lines of the log name the container. -/
def tag (t : Target) : String := "[" ++ shortId t.container.id ++ "] "

/-- The fault of a message about a result whose exit code cannot be written. -/
def untold (r : ExecResult) : Option Fault :=
  if r.isTellable then none else some (.defect .integerTooLong)

/-- Runs a command that may fail: an expected failure is logged and forgotten. -/
def runFreely (t : Target) (c : Command) : Act ExecResult := do
  match ← Act.attempt (Act.exec t.container.id c.argv c.user c.workdir) with
  | .ok r =>
    match r.exitCode with
    | none => pure ()
    | some n =>
      if n ≠ 0 then
        Act.failIf (untold r)
        Act.line .warning (tag t ++ c.display ++ " exited with " ++ toString n)
    Act.give r
  | .error (.failure f) =>
    Act.line .warning (tag t ++ "ignored failure of " ++ c.display ++ ": " ++ f.message)
    Act.give ⟨none, [], []⟩
  | .error e => Act.fail e

/-- The failure of a command whose result is not the wanted one. -/
def execFailed (c : Command) (r : ExecResult) (reason : Option String) : Fault :=
  .failure (.execFailed c.argv r.exitCode r.stdout r.stderr reason)

/-- Sleeps after a command. A delay that does not fit into what remains of the deadline fails, but
only after what remains. -/
def sleepAfter (t : Target) (c : Command) (millis : Nat) : Act Unit := do
  let length ← Act.ofExcept (Readiness.Delay.lengthOf millis)
  match t.deadline with
  | none => Act.sleep length
  | some d =>
    let s ← Act.stage
    fun s => (.ok (), { s with now := d.sleep s.now length })
    if d.remaining s.now < length then
      Act.fail (.failure (.notReady [toString millis ++ "ms after " ++ c.display] (some d.total)
        (some "delay exceeds startup timeout")))

/-- Whether a result is the wanted one, and the failure that it is not. -/
def judge (c : Command) (r : ExecResult) : Completion → Option Fault
  | .exitCode code =>
    if r.exitCode = some code then none else some ((untold r).getD (execFailed c r none))
  | .output stream text =>
    if occurs text.toList (r.output stream).toList then none
    else some (execFailed c r
      (some (Text.Quoted.ofString text ++ " not found on " ++ stream.name)))
  | .sleep _ => none

/-- Runs a command and holds it to its completion. -/
def runChecked (t : Target) (c : Command) (completion : Completion) : Act ExecResult := do
  let r ← Act.exec t.container.id c.argv c.user c.workdir
  Act.failIf (judge c r completion)
  match completion with
  | .sleep millis => sleepAfter t c millis
  | _ => pure ()
  Act.give r

/-- Waits for the conditions that a command names. Without a deadline they have the usual time. -/
def settle (t : Target) (c : Command) : Act Unit := do
  if c.readiness.isEmpty then pure ()
  else
    let s ← Act.stage
    await t c.readiness (t.deadline.getD (.start s.now t.settings.startupTimeout))

/-- Runs a command. -/
def exec (t : Target) (c : Command) : Act ExecResult := do
  Act.line .info (tag t ++ "exec: " ++ c.display)
  let r ← match c.completion with
    | none => runFreely t c
    | some completion => runChecked t c completion
  settle t c
  Act.give r

/-- Copies a payload in. -/
def copy (t : Target) (p : Payload) : Act Unit := do
  Act.line .info (tag t ++ p.display)
  Act.copy t.container.id p

/-- Runs a step. The result is that of a command. -/
def runStep (t : Target) : Step → Act (Option ExecResult)
  | .command c => do
    let r ← exec t c
    Act.give (some r)
  | .copy p => do
    copy t p
    Act.give none

/-- Runs steps in order. The results are those of the commands. -/
def runSteps (t : Target) : List Step → Act (List ExecResult)
  | [] => Act.give []
  | step :: rest => do
    let r ← runStep t step
    let rs ← runSteps t rest
    Act.give (r.toList ++ rs)

/-- Runs the steps of sources in order. -/
def runAll (t : Target) : List Source → Act (List ExecResult)
  | [] => Act.give []
  | source :: rest => do
    let steps ← Act.ofExcept (source.expand t.container)
    let rs ← runSteps t steps
    let others ← runAll t rest
    Act.give (rs ++ others)

/-- Copies the content that a renderer makes to a path. -/
def materialize (t : Target) (target : String) (render : Renderer) (mode : Int) : Act Unit := do
  let steps ← Act.ofExcept (Rendering.materializer target render mode t.container)
  let _ ← runSteps t steps

end Slipway.Injection
