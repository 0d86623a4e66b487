import Slipway.Clock
import Slipway.Container
import Slipway.Outcome

/-!
# `Slipway.World.Basic`: the world of a rehearsal

A rehearsal runs against a world that is known in advance: for every container what its engine
answers and when, for every URL what it answers and from when on. A box is the script of one
container. Timelines are lists of points; of the points that have come the last one counts.
-/

set_option autoImplicit false

namespace Slipway.World

open Slipway.Text.Utf8 (Bytes)

/-- A piece of output, with the moment at which it is written. -/
structure Chunk where
  time : Int
  stream : Stream
  data : Bytes
deriving DecidableEq, Repr

/-- What a healthcheck says from a moment on: a status, nothing, or a fault of the engine. -/
structure HealthPoint where
  time : Int
  status : Except Fault (Option String)

/-- What an HTTP request meets: an answer after some time, or a fault. -/
inductive Reply where
  | answer (status : Int) (body : String) (delay : Int)
  | fault (f : Fault)
deriving DecidableEq, Repr

/-- What a URL answers from a moment on. -/
structure ReplyPoint where
  time : Int
  reply : Reply
deriving DecidableEq, Repr

/-- What a command does in a container: it takes some time, writes to the log of the container, and
gives a result or a fault. -/
structure Exec where
  argv : List String
  result : ExecResult
  took : Int
  emit : List (Stream × Bytes)
  fault : Option Fault
  /-- The engine has told the exit code in digits, so it can be told again. -/
  tellable : result.isTellable = true
deriving DecidableEq, Repr

/-- A command that writes nothing and exits with a code, if no fault comes before. -/
def Exec.exiting (argv : List String) (code : UInt8) (took : Int) (fault : Option Fault) : Exec :=
  ⟨argv, .silent code, took, [], fault, ExecResult.isTellable_silent code⟩

/-- The script of one container. -/
structure Box where
  id : Option String
  host : String
  ports : Option (List (String × Int))
  portBase : Int
  status : String
  startTook : Int
  createFault : Option Fault
  startFault : Option Fault
  statusFault : Option Fault
  inspectFault : Option Fault
  copyFault : Option Fault
  stopFault : Option Fault
  removeFault : Option Fault
  logsFault : Option Fault
  logs : List Chunk
  /-- When each stream ends; a stream that is not named never does. -/
  logEnd : List (Stream × Int)
  logEndFault : Option Fault
  health : List HealthPoint
  execs : List Exec

namespace Box

/-- A container of which nothing is said: it starts at once and runs, silently. -/
def quiet : Box where
  id := none
  host := "localhost"
  ports := none
  portBase := 40000
  status := "running"
  startTook := 0
  createFault := none
  startFault := none
  statusFault := none
  inspectFault := none
  copyFault := none
  stopFault := none
  removeFault := none
  logsFault := none
  logs := []
  logEnd := []
  logEndFault := none
  health := []
  execs := []

instance : Inhabited Box := ⟨quiet⟩

/-- The pieces of a stream that were written at or after a moment in milliseconds, if one is given.
-/
def written (b : Box) (stream : Stream) (since : Option Int) : List Chunk :=
  b.logs.filter fun c => c.stream == stream && (match since with
    | none => true
    | some ms => ms ≤ Clock.toMillis c.time)

/-- All that a stream holds at a moment. -/
def snapshot (b : Box) (stream : Stream) (now : Int) : Bytes :=
  ((b.logs.filter fun c => c.stream == stream && c.time ≤ now).map Chunk.data).flatten

/-- What the healthcheck says at a moment. -/
def healthAt (b : Box) (now : Int) : Except Fault (Option String) :=
  match (b.health.filter fun p => p.time ≤ now).getLast? with
  | none => .ok none
  | some p => p.status

/-- What a command does, and the box after it: of several scripts for one command the first is used
up. -/
def takeExec (b : Box) (argv : List String) : Option Exec × Box :=
  let fits := fun (e : Exec) => e.argv == argv
  match b.execs.filter fits with
  | [] => (none, b)
  | [e] => (some e, b)
  | e :: _ => (some e, { b with execs := b.execs.eraseP fits })

/-- The port table of a container started from a spec. -/
def portTable (b : Box) (exposed : List Port) : List (String × Int) :=
  match b.ports with
  | some table => table
  | none => (exposed.zipIdx).map fun (p, i) => (p.key, b.portBase + i)

end Box
end World

/-- A world: a box for each image reference, one for all others, and the replies of URLs. -/
structure World where
  usual : World.Box
  boxes : List (String × World.Box)
  http : List (String × List World.ReplyPoint)
  /-- The longest time that the clock can sleep at a stretch, if there is one. A clock that counts
  nanoseconds in a word has one; that of a rehearsal has none. -/
  longestSleep : Option Int := none

namespace World

/-- The world in which every container is quiet and no URL answers. -/
def quiet : World where
  usual := .quiet
  boxes := []
  http := []

instance : Inhabited World := ⟨quiet⟩

/-- Whether the clock can sleep for some time at a stretch. -/
def canSleep (w : World) (length : Int) : Bool := w.longestSleep.all (length ≤ ·)

/-- The box of an image reference. -/
def box (w : World) (imageRef : String) : Box := (w.boxes.lookup imageRef).getD w.usual

/-- What a URL meets that does not answer. -/
def refused : Reply := .fault (.request "ConnectionError" "")

/-- The reply of a URL at a moment. -/
def replyAt (w : World) (url : String) (now : Int) : Reply :=
  match (((w.http.lookup url).getD []).filter fun p => p.time ≤ now).getLast? with
  | none => refused
  | some p => p.reply

/-- The moment zero of a rehearsal, in microseconds since 1970: 2024-01-01T00:00:00 UTC. -/
def origin : Int := 1704067200000000

/-- A timestamp as milliseconds of the rehearsal. -/
def millisOf (t : Calendar.Timestamp) : Int :=
  Clock.toMillis ((t.instant - origin) * 1000 * Clock.nanosecond)

/-- Milliseconds of the rehearsal as a timestamp. -/
def timestampOf (millis : Int) : Calendar.Timestamp :=
  Calendar.Timestamp.ofInstant (origin + millis * 1000)

end World
end Slipway
