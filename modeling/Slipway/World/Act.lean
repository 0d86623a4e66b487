import Slipway.Spec
import Slipway.World.Trace

/-!
# `Slipway.World.Act`: what is done in a rehearsal

An act is a computation on a stage: a world, the box of one container, the present moment and the
trace so far. It gives a value or a fault, and in either case the stage after it. The calls to the
engine are acts: each notes what is done and then does what the box says.
-/

set_option autoImplicit false

namespace Slipway.World

open Slipway.Text.Utf8 (Bytes)

/-- Where acts take place. -/
structure Stage where
  world : World
  box : Box
  now : Int
  trace : Trace
  /-- The id of the container, once it is created. -/
  id : Option String
  /-- When the container was started, in milliseconds. -/
  startedAt : Int
  /-- The phases that the container has gone through. -/
  history : List Phase

namespace Stage

/-- The stage before anything has happened to a container. -/
def ready (world : World) (box : Box) (now : Int) : Stage := ⟨world, box, now, [], none, 0, []⟩

instance : Inhabited Stage := ⟨ready .quiet .quiet 0⟩

/-- The stage with one more note. -/
def note (s : Stage) (n : Note) : Stage := { s with trace := s.trace ++ [⟨s.now, n⟩] }

/-- The stage after some time. -/
def pass (s : Stage) (length : Int) : Stage := { s with now := Clock.after s.now length }

end Stage

/-- A computation on a stage. -/
def Act (α : Type) : Type := Stage → Except Fault α × Stage

namespace Act

variable {α β : Type}

/-- Gives a value and does nothing. -/
def give (a : α) : Act α := fun s => (.ok a, s)

/-- Does one act and then another that depends on its value. A fault ends it. -/
def andThen (x : Act α) (f : α → Act β) : Act β := fun s =>
  match x s with
  | (.ok a, t) => f a t
  | (.error e, t) => (.error e, t)

instance : Monad Act where
  pure := give
  bind := andThen

instance : Inhabited (Act α) := ⟨fun s => (.error default, s)⟩

/-- Ends with a fault. -/
def fail (e : Fault) : Act α := fun s => (.error e, s)

/-- Ends with the fault of a result, or gives its value. -/
def ofExcept (r : Except Fault α) : Act α := fun s => (r, s)

/-- Does an act and gives its result as a value. -/
def attempt (x : Act α) : Act (Except Fault α) := fun s =>
  let r := x s
  (.ok r.1, r.2)

/-- Ends with a fault if there is one. -/
def failIf : Option Fault → Act Unit
  | none => give ()
  | some e => fail e

/-- Notes something. -/
def note (n : Note) : Act Unit := fun s => (.ok (), s.note n)

/-- Logs a line. -/
def line (gravity : Gravity) (text : String) : Act Unit := note (.line gravity text)

/-- Lets some time pass. -/
def pass (length : Int) : Act Unit := fun s => (.ok (), s.pass length)

/-- The stage as it is. -/
def stage : Act Stage := fun s => (.ok s, s)

/-- Sleeps for some time, unless that is longer than the clock can sleep. -/
def sleep (length : Int) : Act Unit := do
  let s ← stage
  if s.world.canSleep length then pass length else fail (.defect .sleepTooLong)

/-- Changes the box. -/
def change (f : Box → Box) : Act Unit := fun s => (.ok (), { s with box := f s.box })

/-! ### Calls to the engine -/

/-- Enters a phase. -/
def enter (p : Phase) : Act Unit := fun s => (.ok (), { s with history := s.history ++ [p] })

/-- The id of the `ordinal`th container of a spec. -/
def idOf (box : Box) (spec : Spec) (ordinal : Nat) : String :=
  box.id.getD (spec.imageRef ++ "#" ++ toString ordinal)

/-- Creates a container and copies its files in. -/
def create (spec : Spec) (ordinal : Nat) : Act String := do
  let s ← stage
  failIf s.box.createFault
  let id := idOf s.box spec ordinal
  note (.event id (.create spec.imageRef))
  spec.copyTo.forM fun p => note (.stored id p.target p.content)
  fun s => (.ok id, { s with id := some id })

/-- Starts a container. -/
def start (id : String) : Act Unit := do
  note (.event id .start)
  let s ← stage
  pass s.box.startTook
  failIf s.box.startFault
  fun s => (.ok (), { s with startedAt := Clock.toMillis s.now })

/-- The status of a container. -/
def status : Act String := do
  let s ← stage
  failIf s.box.statusFault
  give s.box.status

/-- What is known of a started container. -/
def inspect (spec : Spec) (id : String) : Act Container := do
  note (.event id .inspect)
  let s ← stage
  failIf s.box.inspectFault
  give ⟨id, s.box.host, s.box.portTable spec.exposedPorts, some (timestampOf s.startedAt)⟩

/-- Runs a command in a container. -/
def exec (id : String) (argv : List String) (user workdir : Option String) : Act ExecResult := do
  note (.event id (.exec argv user workdir))
  let s ← stage
  match s.box.takeExec argv with
  | (none, _) => give ⟨some 0, [], []⟩
  | (some e, box) =>
    change fun _ => box
    pass e.took
    let t ← stage
    change fun b =>
      { b with logs := b.logs ++ e.emit.map fun (stream, data) => ⟨t.now, stream, data⟩ }
    failIf e.fault
    give e.result

/-- Writes a file into a container. -/
def copy (id : String) (p : Payload) : Act Unit := do
  note (.event id (.copy p.target p.mode))
  let s ← stage
  failIf s.box.copyFault
  note (.stored id p.target p.content)

/-- All that a stream of a container holds now. -/
def snapshot (stream : Stream) : Act Bytes := fun s => (.ok (s.box.snapshot stream s.now), s)

/-- Stops a container. -/
def stop (id : String) : Act Unit := do
  note (.event id .stop)
  let s ← stage
  failIf s.box.stopFault

/-- Removes a container. -/
def remove (id : String) : Act Unit := do
  note (.event id .remove)
  let s ← stage
  failIf s.box.removeFault

end Act
end Slipway.World
