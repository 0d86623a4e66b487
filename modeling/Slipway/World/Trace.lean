import Slipway.World.Basic

/-!
# `Slipway.World.Trace`: what happened in a rehearsal

A trace is a list of notes with their moments: what was done to containers, what was asked of them,
which requests were made and what was logged.
-/

set_option autoImplicit false

namespace Slipway.World

open Slipway.Text.Utf8 (Bytes)

/-- Something done to a container. -/
inductive Event where
  | create (imageRef : String)
  | start
  | inspect
  | exec (argv : List String) (user workdir : Option String)
  | copy (path : String) (mode : Int)
  | stop
  | remove
deriving DecidableEq, Repr

/-- Something asked of a container. -/
inductive Probe where
  | logs (stream : Stream) (since : Option Calendar.Timestamp)
  | health (status : Option String)
deriving DecidableEq, Repr

/-- An HTTP request. -/
structure Request where
  method : String
  url : String
  headers : List (String × String)
  /-- How long an answer is waited for. -/
  timeout : Int
  verifyTls : Bool
deriving DecidableEq, Repr

/-- How grave a line of the log is. -/
inductive Gravity where
  | info
  | warning
  | error
deriving DecidableEq, Repr

namespace Gravity

/-- The name of a gravity. -/
def name : Gravity → String
  | info => "INFO"
  | warning => "WARNING"
  | error => "ERROR"

end Gravity

/-- Something that happened. Containers go by their ids. -/
inductive Note where
  | event (id : String) (e : Event)
  /-- A file was written into a container. -/
  | stored (id : String) (path : String) (content : Bytes)
  | probe (id : String) (p : Probe)
  | request (r : Request)
  | line (gravity : Gravity) (text : String)
  /-- A warning of a wait. -/
  | caution (text : String)
deriving DecidableEq, Repr

/-- A note with its moment. -/
structure Entry where
  time : Int
  note : Note
deriving DecidableEq, Repr

/-- What happened, in the order in which it was noted. -/
abbrev Trace := List Entry

namespace Trace

/-- The events of a container, with their moments. -/
def events (t : Trace) (id : String) : List (Int × Event) :=
  t.filterMap fun e => match e.note with
    | .event i ev => if i = id then some (e.time, ev) else none
    | _ => none

/-- The probes of a container, with their moments. -/
def probes (t : Trace) (id : String) : List (Int × Probe) :=
  t.filterMap fun e => match e.note with
    | .probe i p => if i = id then some (e.time, p) else none
    | _ => none

/-- The files written into a container, each path once: the last content counts. -/
def files (t : Trace) (id : String) : List (String × Bytes) :=
  t.foldl (fun fs e => match e.note with
    | .stored i path content =>
      if i = id then (fs.filter fun f => f.1 != path) ++ [(path, content)] else fs
    | _ => fs) []

/-- The requests, with their moments. -/
def requests (t : Trace) : List (Int × Request) :=
  t.filterMap fun e => match e.note with
    | .request r => some (e.time, r)
    | _ => none

/-- The lines of the log, with their moments. -/
def lines (t : Trace) : List (Int × Gravity × String) :=
  t.filterMap fun e => match e.note with
    | .line g s => some (e.time, g, s)
    | _ => none

/-- The warnings of waits, with their moments. -/
def cautions (t : Trace) : List (Int × String) :=
  t.filterMap fun e => match e.note with
    | .caution s => some (e.time, s)
    | _ => none

/-- The ids of the containers that occur, each once, in the order of their first occurrence. -/
def ids (t : Trace) : List String :=
  (t.filterMap fun e => match e.note with
    | .event i _ => some i
    | .stored i _ _ => some i
    | .probe i _ => some i
    | _ => none).eraseDups

end Trace
end Slipway.World
