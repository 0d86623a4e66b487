import Slipway.Readiness.Basic
import Slipway.Scanner

/-!
# `Slipway.Readiness.Log`: waiting for a message in the log

The pieces of the stream since the start of the container are read one after the other, each as soon
as it and all before it are written. The wait ends at the piece that completes the message, or when
the stream ends; and else when it gives up.

The stream is read beside the wait, which asks for the result with a time limit. A stream that ends
because something took too long looks to the wait as if the limit had come: it asks again, at once,
until the deadline is over.
-/

set_option autoImplicit false

namespace Slipway.Readiness.Log

open Slipway.World (Chunk)

/-- What reading a stream comes to. -/
inductive Reading where
  /-- The message is complete. -/
  | found (time : Int)
  /-- All pieces that will ever be written are read, the last at this moment. -/
  | exhausted (time : Int)
deriving DecidableEq, Repr

/-- Reads pieces from a moment on. -/
def read (s : Scanner) (now : Int) : List Chunk → Reading
  | [] => .exhausted now
  | c :: rest =>
    let t := s.feed c.data
    if t.matched then .found (max now c.time) else read t (max now c.time) rest

/-- What the end of a stream at a moment tells, and when it does: the failure to be ready, or the
fault of the box if it has one. -/
def ended (scene : Scene) (m : LogMessage) (d : Deadline) (ends : Int) : Int × Option Fault :=
  match scene.box.logEndFault with
  | none => (ends, some (unmet m.describe d (some (m.stream.name ++ " closed before match"))))
  | some e =>
    if e.isTimeout then (d.overFrom ends, some (unmet m.describe d none)) else (ends, some e)

/-- When reading the box's stream tells something, and what fault it tells; none if it never does.
-/
def verdict (scene : Scene) (m : LogMessage) (d : Deadline) (now : Int) :
    Option (Int × Option Fault) :=
  let since := scene.container.startedAt.map World.millisOf
  match read (Scanner.ofText m.text m.text_ne) now (scene.box.written m.stream since) with
  | .found t => some (t, none)
  | .exhausted t =>
    (scene.box.logEnd.lookup m.stream).map fun ends => ended scene m d (max t ends)

/-- Waits for a message. -/
def wait (scene : Scene) (m : LogMessage) (d : Deadline) (now : Int) : Ending :=
  let probe : World.Note :=
    .probe scene.container.id (.logs m.stream scene.container.startedAt)
  let expired := Ending.failed (d.givesUp now) (unmet m.describe d none)
  Ending.after now probe <|
    match scene.box.logsFault with
    | some e => .failed now e
    | none =>
      match verdict scene m d now with
      | some (t, fault) => if t < d.givesUp now then ⟨[], t, fault⟩ else expired
      | none => expired

end Slipway.Readiness.Log
