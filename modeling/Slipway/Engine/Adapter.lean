import Slipway.Engine.Address
import Slipway.Engine.Attributes
import Slipway.Engine.Session
import Slipway.Engine.StartTime
import Slipway.Text.Path

/-!
# `Slipway.Engine.Adapter`: what a lifecycle asks of an engine

Each act of a lifecycle as requests to an engine. A refusal of the engine becomes the failure of
that act; that a container is gone does not matter to who wants it gone. A container whose files
could not be copied in is removed again, since nobody else knows of it yet. -/

set_option autoImplicit false

namespace Slipway.Engine

open Slipway.Text.Utf8 (Bytes)

/-- An engine as it is used. -/
structure Adapter where
  address : Address
  /-- The time that archives carry, in seconds since 1970. -/
  now : Nat

namespace Adapter

/-- Looks a container up and sends a request about it. -/
def sendTo (id : String) (r : Request) : Call Unit := do
  Call.send (.findContainer id)
  Call.send r

/-- What is known of a container, up to date. -/
def reloaded (id : String) : Call Facts := do
  Call.refusedAs (fun text => .startFailed id ("container no longer available: " ++ text))
    (sendTo id .reload)
  Call.facts

/-- Sees to it that there is an image. One that is missing is pulled, unless the settings forbid
it. -/
def ensureImage (a : Adapter) (spec : Spec) : Call Unit := do
  match ← Call.attempt (Call.send (.findImage spec.imageRef)) with
  | .error (.engine .imageNotFound text) =>
    if a.address.settings.pullMissingImages then Call.send (.pullImage spec.image spec.tag)
    else Call.fail (.engine .imageNotFound text)
  | r => Call.ofExcept r

/-- The directory and the file that bring a content to a path. -/
def parcel (a : Adapter) (content : Bytes) (path : String) (mode : Int) : String × Archive.File :=
  let directory := String.ofList (Text.Path.directory path.toList)
  (if directory = "" then "/" else directory,
    ⟨String.ofList (Text.Path.name path.toList), content, mode, a.now⟩)

/-- Writes a file into a container. -/
def copy (a : Adapter) (id : String) (content : Bytes) (path : String) (mode : Int) : Call Unit :=
  let p := a.parcel content path mode
  Call.refusedAs (fun text => .execFailed ["copy_to", path] none [] [] (some text))
    (sendTo id (.putArchive p.1 p.2))

/-- Writes the files of a spec into a container, in order. -/
def copyAll (a : Adapter) (id : String) : List Payload → Call Unit
  | [] => Call.give ()
  | p :: rest => do
    a.copy id p.content p.target p.mode
    copyAll a id rest

/-- Creates a container and copies its files in. -/
def create (a : Adapter) (spec : Spec) : Call String := do
  let checkup ← Call.ofExcept (spec.healthcheck.mapM Checkup.ofHealthcheck)
  Call.refusedAs (.createFailed spec.imageRef) do
    a.ensureImage spec
    Call.send (.createContainer (.ofSpec spec checkup))
  let facts ← Call.facts
  match ← Call.attempt (a.copyAll facts.id spec.copyTo) with
  | .ok _ => Call.give facts.id
  | .error (.failure (.execFailed command code out err reason)) => do
    Call.tolerating EngineRefusal.isAnswer (Call.send .remove)
    let cause := Failure.execFailed command code out err reason
    Call.fail (.failure (.createFailed spec.imageRef ("copy-in failed: " ++ cause.message)))
  | .error e => Call.fail e

/-- Starts a container. -/
def start (id : String) : Call Unit := Call.refusedAs (.startFailed id) (sendTo id .start)

/-- The status of a container. -/
def status (id : String) : Call String := do
  let facts ← reloaded id
  Call.give facts.status

/-- What is known of a started container. -/
def inspect (a : Adapter) (id : String) : Call Container := do
  let facts ← reloaded id
  let ports ← Call.ofExcept (Attributes.ports facts.attributes)
  let host ← Call.ofExcept a.address.host
  let started ← Call.ofExcept (Attributes.startedAt facts.attributes)
  let startedAt ← Call.ofExcept (StartTime.parse started)
  Call.give ⟨facts.id, host, ports, startedAt⟩

/-- The health of a container. -/
def health (id : String) : Call (Option String) := do
  let facts ← reloaded id
  Call.ofExcept (Attributes.health facts.attributes)

/-- Whether a name is that of a stream. -/
def names (name : String) (stream : Stream) : Bool := name == stream.name

/-- Follows the stream of a name, from a moment on if one is given. -/
def logs (id name : String) (since : Option Calendar.Timestamp) : Call Bytes := do
  Call.refusedAs (fun text => .startFailed id ("cannot follow " ++ name ++ ": " ++ text))
    (sendTo id (.followLogs (names name .stdout) (names name .stderr) since))
  let facts ← Call.facts
  Call.give facts.logs

/-- All that the stream of a name holds now. -/
def snapshot (id name : String) : Call Bytes := do
  sendTo id (.readLogs (names name .stdout) (names name .stderr))
  let facts ← Call.facts
  Call.give facts.logs

/-- What a command wrote to its two streams. -/
def streams : List (Option Bytes) → Except Fault (Bytes × Bytes)
  | [] => .ok ([], [])
  | [out, err] => .ok (out.getD [], err.getD [])
  | output => .error (.defect (.notAPair output.length))

/-- Runs a command in a container. -/
def exec (id : String) (argv : List String) (user workdir : Option String) : Call ExecResult := do
  Call.refusedAs (fun text => .execFailed argv none [] [] (some text))
    (sendTo id (.exec argv (user.getD "") workdir))
  let facts ← Call.facts
  let output ← Call.ofExcept (streams facts.output)
  Call.give ⟨facts.exitCode, output.1, output.2⟩

/-- Stops a container, unless it is gone. -/
def stop (id : String) : Call Unit := Call.tolerating EngineRefusal.isNotFound (sendTo id .stop)

/-- Removes a container, unless it is gone. -/
def remove (id : String) : Call Unit := Call.tolerating EngineRefusal.isNotFound (sendTo id .remove)

end Adapter
end Slipway.Engine
