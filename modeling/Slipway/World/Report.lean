import Slipway.Dump
import Slipway.Json.Marked
import Slipway.Json.Printer
import Slipway.World.Trace

/-!
# `Slipway.World.Report`: rehearsals written in JSON

A report tells how a rehearsal went: when it ended, what was done to each container and asked of it,
which requests were made and what was logged. Times are in milliseconds. What happened at one moment
to different parties has no order of its own, so probes, requests and warnings are sorted by their
times and then by their texts. A fault is an object of its name, its message and its parts.
-/

set_option autoImplicit false

namespace Slipway.World.Report

open Slipway.Json.Marked (ofBytes ofNumber ofTexts ofTable ofText? ofDatum)

/-! ### Faults -/

/-- Texts in order. -/
def sortTexts (xs : List String) : List String := xs.mergeSort fun a b => a ≤ b

/-- An error by its name and message. -/
def error (name message : String) : Json :=
  .object [("error", .text name), ("message", .text message)]

/-- The parts of a reason, in order. -/
def reasons (reason : Option String) : List String :=
  match reason with
  | some r => if r = "" then [] else sortTexts (r.splitOn "; ")
  | none => []

/-- A failure. The message of one that names several conditions is left out, for it depends on the
order in which they failed. -/
def failure (f : Failure) : Json :=
  let typed := fun (name : String) (fields : List (String × Json)) =>
    Json.object [("error", .text name), ("message", .text f.message), ("fields", .object fields)]
  match f with
  | .general _ => typed "ContainerError" []
  | .runtimeUnavailable _ => typed "RuntimeUnavailable" []
  | .createFailed image reason =>
    typed "CreateFailed" [("image", .text image), ("reason", .text reason)]
  | .startFailed id reason =>
    typed "StartFailed" [("container_id", .text id), ("reason", .text reason)]
  | .execFailed command code out err _ =>
    typed "ExecFailed" [("command", ofTexts command), ("exit_code", (code.map .int).getD .null),
      ("stdout", ofBytes out), ("stderr", ofBytes err)]
  | .portNotPublished key => typed "PortNotPublished" [("internal_port", .text key)]
  | .notReady unmet timeout reason =>
    let parts := reasons reason
    .object ([("error", .text "ReadinessTimeout"), ("unmet", ofTexts (sortTexts unmet)),
        ("timeout", (timeout.map ofNumber).getD .null), ("reasons", ofTexts parts)]
      ++ (if unmet.length ≤ 1 && parts.length ≤ 1 then [("message", .text f.message)] else []))

/-- A step of a place. -/
def place : Place → Json
  | .key s => .text s
  | .index i => .int i

/-- An issue. -/
def issue (i : Issue) : Json :=
  .object [("type", .text i.kind.code), ("loc", .list (i.place.map place)),
    ("msg", .text i.kind.message)]

/-- The name of a defect that has a message. -/
def defectName : Defect → String
  | .notUtf8 _ => "UnicodeDecodeError"
  | .unsupportedCondition _ => "TypeError"
  | .notALevel _ => "TypeError"
  | .noInteger _ => "TypeError"
  | .noMembers _ => "TypeError"
  | .noItems _ => "TypeError"
  | .noContents _ => "TypeError"
  | .noOperation _ _ => "AttributeError"
  | .infiniteInteger => "OverflowError"
  | .quotientTooLarge => "OverflowError"
  | .sleepTooLong => "OverflowError"
  | .missingKey _ => "KeyError"
  | .emptyNumeral => "IndexError"
  | .notAMoment => "AttributeError"
  | .exit _ => "SystemExit"
  | _ => "ValueError"

/-- A defect. -/
def defect (d : Defect) : Json :=
  match d with
  | .invalid model issues => .object [("error", .text "ValidationError"), ("title", .text model),
      ("details", .list (issues.map issue))]
  | .notYaml => .object [("error", .text "YAMLError")]
  | d => error (defectName d) d.message

/-- The name of a refusal. -/
def refusalName : EngineRefusal → String
  | .unusable => "DockerException"
  | .rejected => "APIError"
  | .notFound => "NotFound"
  | .imageNotFound => "ImageNotFound"

/-- A fault. -/
def fault : Fault → Json
  | .failure f => failure f
  | .request name text => error name text
  | .engine refusal text => error (refusalName refusal) text
  | .defect d => defect d
  | .other name text => error name text
  | .interrupt text => error "KeyboardInterrupt" text

/-! ### Traces -/

/-- An event with its moment. -/
def event (e : Int × Event) : Json :=
  let entry := fun (name : String) (rest : List Json) =>
    Json.list (.int (Clock.toMillis e.1) :: .text name :: rest)
  match e.2 with
  | .create ref => entry "create" [.text ref]
  | .start => entry "start" []
  | .inspect => entry "inspect" []
  | .exec argv user workdir => entry "exec" [ofTexts argv, ofText? user, ofText? workdir]
  | .copy path mode => entry "copy" [.text path, .int mode]
  | .stop => entry "stop" []
  | .remove => entry "remove" []

/-- Entries by their moments, and by the text of the rest. -/
def sorted (entries : List (Int × List Json)) : Json :=
  let keyed := entries.map fun (t, rest) =>
    (Clock.toMillis t, Json.render Json.spaced (.list rest), rest)
  .list ((keyed.mergeSort fun a b => a.1 < b.1 || (a.1 == b.1 && a.2.1 ≤ b.2.1)).map
    fun (ms, _, rest) => .list (.int ms :: rest))

/-- A probe. -/
def probe : Probe → List Json
  | .logs stream since => [.text "logs", .text stream.name, ofText? (since.map (·.text))]
  | .health status => [.text "health", ofText? status]

/-- What happened to one container. -/
def container (t : Trace) (id : String) : Json :=
  let files := t.files id
  .object ([("events", .list ((t.events id).map event)),
      ("probes", sorted ((t.probes id).map fun (time, p) => (time, probe p)))]
    ++ (if files.isEmpty then [] else
      [("files", .object (files.map fun (path, b) => (path, ofBytes b)))]))

/-- A request. -/
def request (r : Request) : List Json :=
  [.text r.method, .text r.url, ofTable r.headers, .int (Clock.toMillis r.timeout),
    .bool r.verifyTls]

/-- A text up to the words that begin the failure to be ready, and a star for what follows them. -/
def cut (s : String) : String :=
  let words := "Readiness not reached"
  match s.splitOn words with
  | first :: _ :: _ => first ++ words ++ "*"
  | _ => s

/-- A line of the log. -/
def line (l : Int × Gravity × String) : Json :=
  .list [.int (Clock.toMillis l.1), .text l.2.1.name, .text (cut l.2.2)]

/-- The report of a rehearsal that ended at some moment. -/
def ofTrace (now : Int) (t : Trace) : List (String × Json) :=
  [("end_ms", .int (Clock.toMillis now)),
   ("runtime", .object (t.ids.map fun id => (id, container t id))),
   ("http", sorted (t.requests.map fun (time, r) => (time, request r))),
   ("wait_log", sorted (t.cautions.map fun (time, text) => (time, [.text "WARNING", .text text])))]

/-- The lines of the log. -/
def lines (t : Trace) : Json := .list (t.lines.map line)

end Slipway.World.Report
