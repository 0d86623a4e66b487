import Slipway.Engine.Session
import Slipway.World.Report
import Slipway.World.Script

/-!
# `Slipway.Engine.Script`: sessions written in JSON

A script says what the engine tells of its container and which requests it refuses, by their names;
what was sent is written as a name, arguments and named options.
-/

set_option autoImplicit false

namespace Slipway.Engine.Script

open Slipway.Json.Marked (ofBytes ofTexts ofTable ofText?)
open Slipway.World.Script (member items members text?)

/-- The operations by name. -/
def operations : List (String × Operation) :=
  [("images.get", .findImage), ("images.pull", .pullImage), ("containers.create", .createContainer),
   ("containers.get", .findContainer), ("start", .start), ("stop", .stop), ("remove", .remove),
   ("reload", .reload), ("logs", .logs), ("exec_run", .exec), ("put_archive", .putArchive)]

/-- The attributes of a container of which nothing is said. -/
def noAttributes : Json :=
  .object [("NetworkSettings", .object [("Ports", .null)]), ("State", .object [])]

/-- The id of a container of which nothing is said. -/
def usualId : String := String.ofList (List.replicate 64 'a')

/-- A value, or nothing for null. -/
def present? {α : Type} (f : Json → α) : Json → Option α
  | .null => none
  | j => some (f j)

/-- What the engine tells of a container. -/
def facts (j : Json) : Facts where
  id := (text? (member "id" j)).getD usualId
  status := (text? (member "status" j)).getD World.Box.quiet.status
  attributes := (j.get? "attrs").getD noAttributes
  logs := Json.Marked.bytes (member "logs" j)
  output := (items (member "exec_output" j)).map (present? Json.Marked.bytes)
  exitCode := match j.get? "exit_code" with
    | some (.int n) => some n
    | some _ => none
    | none => some 0

/-- A session before anything was sent. -/
def session (j : Json) : Session where
  facts := facts (member "container" j)
  turns := (members (member "errors" j)).filterMap fun m =>
    (operations.lookup m.1).map fun o => (o, (items m.2).map (present? World.Script.fault))
  sent := []

/-- A mount. -/
def mount (m : Mount) : Json :=
  .object [("Target", .text m.target), ("Source", ofText? m.source), ("Type", .text m.kind.name),
    ("ReadOnly", .bool m.readOnly)]

/-- A check of a container's health. -/
def checkup (c : Checkup) : Json :=
  .object [("test", ofTexts c.test), ("interval", .int c.interval), ("timeout", .int c.timeout),
    ("retries", .int c.retries), ("start_period", .int c.startPeriod)]

/-- The options of a container to be made. -/
def creation (c : Creation) : List (String × Json) :=
  [("command", (c.command.map ofTexts).getD .null), ("entrypoint", ofText? c.entrypoint),
    ("environment", ofTable c.environment), ("labels", ofTable c.labels), ("name", ofText? c.name),
    ("ports", .object (c.ports.map fun k => (k, .null))), ("mounts", .list (c.mounts.map mount)),
    ("healthcheck", (c.checkup.map checkup).getD .null), ("detach", .bool true)]

/-- A file of an archive, as its reader finds it. -/
def archived (f : Archive.File) : Json :=
  .object [("name", .text f.foundName), ("size", .int f.content.length),
    ("mode", .int f.permissions), ("mtime", .int f.modified), ("content", ofBytes f.content)]

/-- The arguments and options of a request. -/
def arguments : Request → List Json × List (String × Json)
  | .findImage ref => ([.text ref], [])
  | .pullImage image tag => ([.text image], [("tag", .text tag)])
  | .createContainer c => ([.text c.imageRef], creation c)
  | .findContainer id => ([.text id], [])
  | .start => ([], [])
  | .stop => ([], [])
  | .remove => ([], [("force", .bool true), ("v", .bool true)])
  | .reload => ([], [])
  | .readLogs out err => ([], [("stdout", .bool out), ("stderr", .bool err)])
  | .followLogs out err since =>
    ([], [("stdout", .bool out), ("stderr", .bool err), ("stream", .bool true),
      ("follow", .bool true), ("since", ofText? (since.map (·.text)))])
  | .exec argv user workdir =>
    ([ofTexts argv], [("demux", .bool true), ("user", .text user), ("workdir", ofText? workdir)])
  | .putArchive directory file => ([.text directory, .list [archived file]], [])

/-- A request that was sent. -/
def sent (r : Request) : Json :=
  let name := ((operations.find? (·.2 = r.operation)).map (·.1)).getD ""
  let a := arguments r
  .list [.text name, .list a.1, .object a.2]

end Slipway.Engine.Script
