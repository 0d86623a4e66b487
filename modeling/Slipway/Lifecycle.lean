import Slipway.Injection

/-!
# `Slipway.Lifecycle`: from a spec to a ready container

A lifecycle creates a container, starts it, runs the steps that come before it is ready, waits until
it is, and runs the steps that come after. A failure ends it, and the container is removed unless
the settings keep it; anything else that stops it is passed on, and the container is removed in any
case. There is one attempt, and one deadline for all that follows the start.
-/

set_option autoImplicit false

namespace Slipway.Lifecycle

open Slipway.World (Act Stage)

/-- A timeout, unless it is zero, which means none. -/
def nonzero (timeout : Option Binary64) : Option Binary64 :=
  timeout.filter fun t => !t.isZero

/-- The seconds that a start may take: those asked for, those of the spec, or the usual ones. -/
def timeoutOf (settings : Settings) (spec : Spec) (timeout : Option Binary64) : Binary64 :=
  ((nonzero timeout).or (nonzero spec.startupTimeout)).getD settings.startupTimeout

/-- Enters a phase and logs it. -/
def enter (spec : Spec) (p : Phase) : Act Unit := do
  Act.enter p
  let s ← Act.stage
  let id := s.id.getD ""
  Act.line .info
    (spec.imageRef ++ " [" ++ (if id = "" then "-" else shortId id) ++ "] -> " ++ p.name)

/-- Starts a container and looks at it. One that does not run has failed. -/
def start (spec : Spec) (id : String) : Act Container := do
  Act.start id
  let status ← Act.status
  if status = "running" then Act.inspect spec id
  else Act.fail (.failure (.startFailed id
    ("status is " ++ Text.Quoted.ofString status ++ " after start")))

/-- Runs a list of steps as a phase of its own, if there are any. -/
def runPhase (spec : Spec) (p : Phase) (t : Injection.Target) (sources : List Source) :
    Act Unit := do
  if sources.isEmpty then pure ()
  else
    enter spec p
    let _ ← Injection.runAll t sources

/-- Brings a container up, through all phases but the last. -/
def bringUp (settings : Settings) (spec : Spec) (timeout : Option Binary64) (ordinal : Nat) :
    Act Container := do
  let id ← Act.create spec ordinal
  enter spec .created
  let container ← start spec id
  enter spec .started
  let s ← Act.stage
  let deadline := Deadline.start s.now (timeoutOf settings spec timeout)
  let target : Injection.Target := ⟨container, settings, some deadline⟩
  runPhase spec .preReadyExec target spec.execBeforeReady
  enter spec .evaluating
  Injection.await target spec.waitFor deadline
  runPhase spec .postStartExec target spec.execAfterStart
  Act.give container

/-- Removes a container for good. That it cannot be removed is only logged, unless it is an
interrupt. -/
def discard (id : String) : Act Unit := do
  match ← Act.attempt (Act.remove id) with
  | .ok _ => pure ()
  | .error e =>
    if e.isInterrupt then Act.fail e
    else Act.line .warning ("Error during cleanup of " ++ shortId id ++ ": " ++ e.message)

/-- Removes the container of the stage, if there is one. -/
def discardCreated : Act Unit := do
  let s ← Act.stage
  match s.id with
  | none => pure ()
  | some id => if id = "" then pure () else discard id

/-- Drives a spec to a ready container, or to a failure. -/
def run (settings : Settings) (spec : Spec) (timeout : Option Binary64) (ordinal : Nat) :
    Act Outcome := do
  match ← Act.attempt (bringUp settings spec timeout ordinal) with
  | .ok container =>
    enter spec .ready
    let s ← Act.stage
    Act.give ⟨true, s.id, some container, none, s.history⟩
  | .error (.failure f) =>
    enter spec .failed
    Act.line .error (spec.imageRef ++ " failed: " ++ f.message)
    if settings.removeOnFailure then discardCreated
    let s ← Act.stage
    Act.give ⟨false, s.id, none, some f, s.history⟩
  | .error e =>
    discardCreated
    Act.fail e

/-- How often the image reference of each spec occurs among it and those before it. -/
def ordinals (specs : List Spec) : List Nat :=
  specs.zipIdx.map fun (s, i) => ((specs.take (i + 1)).filter (·.imageRef == s.imageRef)).length

/-- A start that is over: its result and the stage that it left. -/
abbrev Finished := Except Fault Outcome × Stage

/-- Starts containers at the same moment, each on a stage of its own.

They begin together since there are as many workers as specs, so that no start waits until another
is over. The stages are apart since starts share no state that changes: what they have in common are
the settings, the engine and the runner of their steps, which they only call, and what a start comes
to know (its phases, its id, its deadline) it keeps to itself. -/
def startEach (settings : Settings) (world : World) (now : Int) (specs : List Spec)
    (timeout : Option Binary64) : List Finished :=
  (specs.zip (ordinals specs)).map fun (s, n) =>
    run settings s timeout n (.ready world (world.box s.imageRef) now)

/-- The outcomes of starts in the order of the specs, or the first fault among them. -/
def outcomes (runs : List Finished) : Except Fault (List Outcome) := runs.mapM (·.1)

/-- The moment at which the last start is over. -/
def lastMoment (now : Int) (runs : List Finished) : Int :=
  runs.foldl (fun t r => max t r.2.now) now

/-- What happened in all starts. -/
def traceOf (runs : List Finished) : World.Trace := runs.flatMap (·.2.trace)

end Slipway.Lifecycle
