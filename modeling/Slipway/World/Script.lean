import Slipway.Json.Marked
import Slipway.World.Basic

/-!
# `Slipway.World.Script`: worlds written in JSON

A script gives the boxes and the replies of a world. Everything in it may be left out. Moments and
lengths of time are seconds; bytes may be a text, for its UTF-8; a fault is an object of its kind
and arguments. -/

set_option autoImplicit false

namespace Slipway.World.Script

open Slipway.Json.Marked (bytes number?)

/-- The member of an object with a name, null if there is none. -/
def member (name : String) (j : Json) : Json := (j.get? name).getD .null

/-- The items of a list; of anything else none. -/
def items : Json → List Json
  | .list xs => xs
  | _ => []

/-- The members of an object; of anything else none. -/
def members : Json → List (String × Json)
  | .object ms => ms
  | _ => []

/-- A text. -/
def text? : Json → Option String
  | .text s => some s
  | _ => none

/-- An integer. -/
def integer? : Json → Option Int
  | .int n => some n
  | _ => none

/-- Seconds as a length of time, none if there is no number. -/
def seconds (j : Json) : Int := ((number? j).map Clock.ofSeconds).getD 0

/-- The stream with a name. -/
def stream (j : Json) : Stream := ((text? j).bind Stream.ofName?).getD .stdout

/-- An argument of a fault as it is shown. -/
def shown : Json → String
  | .text s => s
  | .int n => toString n
  | .null => "None"
  | _ => ""

/-- The words of a command. -/
def words : Json → List String
  | .list xs => xs.map shown
  | .text s => s.toList.map fun c => String.ofList [c]
  | _ => []

/-- The fault of a kind with arguments. A kind that is not known is that of a request. -/
def faultOf (kind : String) (args : List Json) : Fault :=
  let texts := args.map shown
  let arg := fun i => (texts[i]?).getD ""
  let plain := Fault.argumentsText texts
  let refusal := fun (r : EngineRefusal) => Fault.engine r (Fault.refusalText (arg 0) texts[1]?)
  match kind with
  | "ContainerError" => .failure (.general plain)
  | "RuntimeUnavailable" => .failure (.runtimeUnavailable plain)
  | "CreateFailed" => .failure (.createFailed (arg 0) (arg 1))
  | "StartFailed" => .failure (.startFailed (arg 0) (arg 1))
  | "PortNotPublished" => .failure (.portNotPublished (arg 0))
  | "ExecFailed" =>
    .failure (.execFailed (words ((args[0]?).getD .null)) ((args[1]?).bind integer?) [] []
      ((args[2]?).bind text?))
  | "RuntimeError" => .other "RuntimeError" plain
  | "ValueError" => .other "ValueError" plain
  | "KeyboardInterrupt" => .interrupt plain
  | "APIError" => refusal .rejected
  | "NotFound" => refusal .notFound
  | "ImageNotFound" => refusal .imageNotFound
  | "DockerException" => .engine .unusable plain
  | name => .request name plain

/-- A fault. -/
def fault (j : Json) : Fault :=
  faultOf (((text? (member "kind" j))).getD "") (items (member "args" j))

/-- The fault under a name, if there is one. -/
def fault? (name : String) (j : Json) : Option Fault :=
  match member name j with
  | .null => none
  | e => some (fault e)

/-- A piece of the log. -/
def chunk (j : Json) : Chunk :=
  ⟨seconds (member "at" j), stream (member "stream" j), bytes (member "data" j)⟩

/-- A point of the healthcheck. -/
def healthPoint (j : Json) : HealthPoint :=
  ⟨seconds (member "at" j), match fault? "error" j with
    | some e => .error e
    | none => .ok (text? (member "status" j))⟩

/-- An exit code: zero if none is given, and none if what is given is no number. -/
def exitCode (j : Json) : { code : Option Int // code.all Text.Integer.isWritable = true } :=
  match j.get? "exit_code" with
  | some (.int n) => if h : Text.Integer.isWritable n = true then ⟨some n, h⟩ else ⟨none, rfl⟩
  | some _ => ⟨none, rfl⟩
  | none => ⟨some 0, by decide⟩

/-- The script of a command. -/
def exec (j : Json) : Exec where
  argv := words (member "cmd" j)
  result := ⟨(exitCode j).1, bytes (member "stdout" j), bytes (member "stderr" j)⟩
  tellable := (exitCode j).2
  took := seconds (member "took" j)
  emit :=
    (items (member "emit" j)).map fun e => (stream (member "stream" e), bytes (member "data" e))
  fault := fault? "error" j

/-- A box. -/
def box (j : Json) : Box where
  id := text? (member "id" j)
  host := (text? (member "host" j)).getD Box.quiet.host
  ports := match member "ports" j with
    | .object ms => some (ms.map fun m => (m.1, (integer? m.2).getD 0))
    | _ => none
  portBase := (integer? (member "port_base" j)).getD Box.quiet.portBase
  status := (text? (member "status" j)).getD Box.quiet.status
  startTook := seconds (member "start_took" j)
  createFault := fault? "create_error" j
  startFault := fault? "start_error" j
  statusFault := fault? "status_error" j
  inspectFault := fault? "inspect_error" j
  copyFault := fault? "copy_error" j
  stopFault := fault? "stop_error" j
  removeFault := fault? "remove_error" j
  logsFault := fault? "logs_error" j
  logs := (items (member "logs" j)).map chunk
  logEnd := (members (member "log_end" j)).filterMap fun m =>
    (Stream.ofName? m.1).map fun s => (s, seconds m.2)
  logEndFault := fault? "log_end_error" j
  health := (items (member "health" j)).map healthPoint
  execs := (items (member "execs" j)).map exec

/-- A point of a URL's replies. -/
def replyPoint (j : Json) : ReplyPoint :=
  ⟨seconds (member "at" j), match member "status" j with
    | .int status =>
      .answer status ((text? (member "body" j)).getD "") (seconds (member "delay" j))
    | _ => .fault ((fault? "error" j).getD (.request "ConnectionError" ""))⟩

/-- A world. -/
def world (j : Json) : World where
  usual := box (member "default" j)
  boxes := (members (member "containers" j)).map fun m => (m.1, box m.2)
  http := (members (member "http" j)).map fun m => (m.1, (items m.2).map replyPoint)

end Slipway.World.Script
