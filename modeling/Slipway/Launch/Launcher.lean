import Slipway.Handle
import Slipway.Launch.Console
import Slipway.Launch.PlanFile
import Slipway.Settings.Environment
import Slipway.Severity

/-!
# `Slipway.Launch.Launcher`: services held until a signal

A launcher starts the services of a plan at one moment and waits for all of them. If one has failed,
it removes the containers of the others and ends with code one. Otherwise it holds them, and looks
ten times in a second whether it is still running. The first signal ends that: the containers are
removed when it arrives, and the launcher ends with code zero at its next look.

A signal that arrives while services are still starting finds no containers to remove. The launcher
does not run any more from then on, and does nothing at the next signals or in the end.

All that is done is also shown, and a notice that the console refuses is a fault like any other.
Only one that stands for a removal is caught, and told in turn; any other ends the launch where it
stands. -/

set_option autoImplicit false

namespace Slipway.Launch

open Slipway.World (Stage Trace)

/-- A signal and the moment at which it arrives. -/
structure Signal where
  time : Int
  number : Nat
deriving DecidableEq, Repr

/-- A ready container, and the stage that its start left. -/
structure Held where
  handle : Handle
  stage : Stage

namespace Held

/-- The ready container of a start, if it ended with one. -/
def ofFinished (settings : Settings) (spec : Spec) (run : Lifecycle.Finished) : Option Held :=
  match run.1 with
  | .ok o => if o.ok then o.container.map fun c => ⟨⟨spec, c, settings⟩, run.2⟩ else none
  | .error _ => none

/-- The ready containers of starts, in the order of their specs. -/
def ofRuns (settings : Settings) (specs : List Spec) (runs : List Lifecycle.Finished) : List Held :=
  (specs.zip runs).filterMap fun (spec, run) => ofFinished settings spec run

/-- The id of the container. -/
def id (h : Held) : String := h.handle.container.id

/-- What is shown before the container is removed. -/
def announcement (h : Held) : Notice := .removing h.id h.handle.spec.imageRef

/-- Removes the container at a moment: what comes of it, and what happens. -/
def remove (h : Held) (now : Int) : Except Fault Unit × Trace :=
  let r := h.handle.remove { h.stage with now, trace := [] }
  (r.1, r.2.trace)

end Held

/-- A launcher at a moment. -/
structure Launcher where
  now : Int
  trace : Trace
  console : Console
  /-- What was shown so far. -/
  shown : List Notice
  held : List Held
  isRunning : Bool

namespace Launcher

/-- A launcher before it starts. -/
def on (console : Console) : Launcher := ⟨0, [], console, [], [], false⟩

/-- A launcher before it starts whose notices are kept. -/
def fresh : Launcher := on .keeping

instance : Inhabited Launcher := ⟨fresh⟩

/-- The launcher after a notice was shown. -/
def showing (l : Launcher) (n : Notice) : Launcher := { l with shown := l.shown ++ [n] }

/-- Shows a notice and goes on. One that the console refuses ends the work. -/
def tell {α : Type} (l : Launcher) (n : Notice) (next : Launcher → Except Fault α × Launcher) :
    Except Fault α × Launcher :=
  match l.console.refusal? n with
  | some e => (.error e, l)
  | none => next (l.showing n)

/-! ### The end -/

/-- Removes one container, once that is announced. -/
def release (l : Launcher) (h : Held) : Except Fault Unit × Launcher :=
  l.tell h.announcement fun l =>
    let r := h.remove l.now
    (r.1, { l with trace := l.trace ++ r.2 })

/-- Removes containers one after the other. One that cannot be announced or removed is only shown,
unless it is an interrupt that stops it. -/
def releaseAll : List Held → Launcher → Except Fault Unit × Launcher
  | [], l => (.ok (), l)
  | h :: rest, l =>
    match l.release h with
    | (.ok _, l) => releaseAll rest l
    | (.error e, l) =>
      if e.isInterrupt then (.error e, l) else l.tell (.notRemoved e) (releaseAll rest)

/-- Removes all containers that are held. -/
def cleanUp (l : Launcher) : Except Fault Unit × Launcher :=
  match releaseAll l.held l with
  | (.ok _, l) => { l with held := [] }.tell .cleaned fun l => (.ok (), l)
  | (.error e, l) => (.error e, l)

/-- Stops running, for a signal or without one. A launcher that does not run does nothing. -/
def shutDown (l : Launcher) (signal : Option Nat) : Except Fault Unit × Launcher :=
  let stop := fun (l : Launcher) => { l with isRunning := false }.cleanUp
  if l.isRunning then
    match signal with
    | some n => l.tell (.signalled n) stop
    | none => stop l
  else (.ok (), l)

/-- Receives signals one after the other. -/
def receive : List Signal → Launcher → Except Fault Unit × Launcher
  | [], l => (.ok (), l)
  | s :: rest, l =>
    match { l with now := max l.now s.time }.shutDown (some s.number) with
    | (.ok _, l) => receive rest l
    | (.error e, l) => (.error e, l)

/-! ### Holding services -/

/-- How long the launcher sleeps before it looks again. -/
def turn : Int := Clock.after 0 (Clock.ofSeconds Settings.tenth)

/-- The first look, of those that come one turn after the other, that is not before a moment. -/
def nextLook (now time : Int) : Int :=
  now + max 1 ((time - now + turn - 1) / turn) * turn

/-- Holds services until a signal arrives, of those that are still to come. -/
def idle (signals : List Signal) (l : Launcher) : Except Fault Int × Launcher :=
  if l.isRunning then
    match signals with
    | [] => (.error (.defect .stalled), l)
    | first :: _ =>
      let look := nextLook l.now first.time
      match receive (signals.filter fun s => s.time ≤ look) l with
      | (.ok _, l) => (.ok 0, { l with now := look })
      | (.error e, l) => (.error e, l)
  else (.ok 0, l)

/-! ### The launch -/

/-- What follows the starts of all services. -/
def conclude (plan : Plan) (outcomes : List Outcome) (signals : List Signal) (l : Launcher) :
    Except Fault Int × Launcher :=
  l.tell (.services plan outcomes) fun l =>
    if outcomes.all (·.ok) then l.tell .allReady (idle signals)
    else
      match l.shutDown none with
      | (.ok _, l) => (.ok 1, l)
      | (.error e, l) => (.error e, l)

/-- Starts services, while signals may arrive. Those that arrive later are left. -/
def launch (settings : Settings) (world : World) (plan : Plan) (specs : List Spec)
    (signals : List Signal) (l : Launcher) : Except Fault Int × Launcher :=
  let runs := Lifecycle.startEach settings world l.now specs none
  let last := Lifecycle.lastMoment l.now runs
  let isEarly := fun (s : Signal) => s.time < last
  match receive (signals.filter isEarly) l with
  | (.error e, l) => (.error e, l)
  | (.ok _, l) =>
    let l := { l with now := last, trace := l.trace ++ Lifecycle.traceOf runs }
    match Lifecycle.outcomes runs with
    | .error e => (.error e, l)
    | .ok outcomes =>
      conclude plan outcomes (signals.filter fun s => !isEarly s)
        { l with held := Held.ofRuns settings specs runs }

/-- Launches a plan. The signals come in the order in which they arrive. -/
def start (settings : Settings) (world : World) (plan : Plan) (signals : List Signal)
    (l : Launcher) : Except Fault Int × Launcher :=
  { l with isRunning := true }.tell (.opening settings plan) fun l =>
    match plan.build with
    | .error e => (.error e, l)
    | .ok specs => launch settings world plan specs signals l

/-- Launches the plan in the file that the settings name. Without it the code is one. -/
def run (settings : Settings) (files : Files) (world : World) (signals : List Signal)
    (l : Launcher) : Except Fault Int × Launcher :=
  match PlanFile.find? files settings.specFile with
  | none => l.tell (.noPlan settings.specFile) fun l => (.error (.defect (.exit 1)), l)
  | some (.error e) => (.error e, l)
  | some (.ok plan) => start settings world plan signals l

end Launcher

/-- Signals in the order in which they arrive. -/
def inOrder (signals : List Signal) : List Signal := signals.mergeSort fun a b => a.time ≤ b.time

/-- The file with variables that are added to the environment. -/
def envFile : String := ".env"

/-- Runs a launcher in a directory with an environment. There is none if the settings are no
settings. -/
def run (console : Console) (environment : List (String × String)) (files : Files) (world : World)
    (signals : List Signal) : Except Fault Int × Option Launcher :=
  match Settings.Environment.settings environment (files.get? envFile) with
  | .error e => (.error e, none)
  | .ok settings =>
    match Severity.ofName settings.logLevel with
    | .error e => (.error (.defect e), none)
    | .ok _ =>
      let r := Launcher.run settings files world (inOrder signals) (.on console)
      (r.1, some r.2)

end Slipway.Launch
