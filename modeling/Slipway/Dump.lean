import Slipway.Datum.Basic
import Slipway.Outcome

/-!
# `Slipway.Dump`: values as data

Each value of the domain as a record with all its fields, in the order of their declaration.
Checking the record gives the value back. -/

set_option autoImplicit false

namespace Slipway

namespace Datum

/-- A value or null. -/
def ofOption {α : Type} (f : α → Datum) : Option α → Datum
  | none => .null
  | some a => f a

/-- A list of values. -/
def ofList {α : Type} (f : α → Datum) (xs : List α) : Datum := .list (xs.map f)

/-- A table of texts. -/
def ofTable (entries : List (String × String)) : Datum :=
  .mapping (entries.map fun e => (.text e.1, .text e.2))

end Datum

open Datum (record ofOption ofList ofTable)

/-- A port as a record. -/
def Port.dump (p : Port) : Datum :=
  record [("port", .int p.number), ("protocol", .text p.protocol.name)]

/-- A log message as a record. -/
def LogMessage.dump (m : LogMessage) : Datum :=
  record [("kind", .text "log_message"), ("stream", .text m.stream.name), ("text", .text m.text)]

/-- An HTTP probe as a record. -/
def HttpProbe.dump (h : HttpProbe) : Datum :=
  record [("kind", .text "http"), ("path", .text h.path), ("port", h.port.dump),
    ("expected_status", .int h.expectedStatus), ("expected_body", ofOption .text h.expectedBody),
    ("method", .text h.method), ("scheme", .text h.scheme.name), ("verify_tls", .bool h.verifyTls),
    ("headers", ofTable h.headers), ("poll_interval", ofOption .float h.pollInterval)]

namespace Condition

mutual

/-- A condition as a record. -/
def dump : Condition → Datum
  | log m => m.dump
  | http h => h.dump
  | delay n => record [("kind", .text "duration"), ("millis", .int n)]
  | healthcheck => record [("kind", .text "healthcheck")]
  | all members => record [("kind", .text "all"), ("conditions", .list (dumpAll members))]
  | foreign label => .text label

/-- Conditions as records. -/
def dumpAll : List Condition → List Datum
  | [] => []
  | c :: rest => dump c :: dumpAll rest

end

end Condition

/-- A completion as a record. -/
def Completion.dump : Completion → Datum
  | .exitCode n => record [("kind", .text "exit_code"), ("code", .int n)]
  | .output s t =>
    record [("kind", .text "output_message"), ("stream", .text s.name), ("text", .text t)]
  | .sleep n => record [("kind", .text "sleep"), ("millis", .int n)]

/-- A command as a record. -/
def Command.dump (c : Command) : Datum :=
  record [("cmd", ofList .text c.argv),
    ("cmd_ready_condition", ofOption Completion.dump c.completion),
    ("container_ready_conditions", .list (Condition.dumpAll c.readiness)),
    ("user", ofOption .text c.user), ("workdir", ofOption .text c.workdir),
    ("description", ofOption .text c.description)]

/-- A payload as a record. -/
def Payload.dump (p : Payload) : Datum :=
  record [("target", .text p.target), ("content", .bytes p.content), ("mode", .int p.mode)]

/-- A step as a record. -/
def Step.dump : Step → Datum
  | .command c => c.dump
  | .copy p => p.dump

/-- A source of steps: a record, or the factory itself. -/
def Source.dump : Source → Datum
  | .step s => s.dump
  | .factory make => .factory make

/-- A mount as a record. -/
def Mount.dump (m : Mount) : Datum :=
  record [("kind", .text m.kind.name), ("target", .text m.target),
    ("source", ofOption .text m.source), ("read_only", .bool m.readOnly)]

/-- A healthcheck as a record. -/
def Healthcheck.dump (h : Healthcheck) : Datum :=
  record [("test", ofList .text h.test), ("interval", .float h.interval),
    ("timeout", .float h.timeout), ("retries", .int h.retries),
    ("start_period", .float h.startPeriod)]

/-- A started container as a record. -/
def Container.dump (c : Container) : Datum :=
  record [("id", .text c.id), ("host", .text c.host),
    ("ports", .mapping (c.ports.map fun e => (.text e.1, .int e.2))),
    ("started_at", ofOption .timestamp c.startedAt)]

/-- A spec as a record. -/
def Spec.dump (s : Spec) : Datum :=
  record [("image", .text s.image), ("tag", .text s.tag), ("name", ofOption .text s.name),
    ("entrypoint", ofOption .text s.entrypoint), ("cmd", ofList .text s.cmd),
    ("env", ofTable s.env), ("labels", ofTable s.labels),
    ("exposed_ports", ofList Port.dump s.exposedPorts), ("copy_to", ofList Payload.dump s.copyTo),
    ("mounts", ofList Mount.dump s.mounts),
    ("healthcheck", ofOption Healthcheck.dump s.healthcheck),
    ("wait_for", .list (Condition.dumpAll s.waitFor)),
    ("exec_before_ready", ofList Source.dump s.execBeforeReady),
    ("exec_after_start", ofList Source.dump s.execAfterStart),
    ("startup_timeout", ofOption .float s.startupTimeout)]

/-- What a command gave back as a record. -/
def ExecResult.dump (r : ExecResult) : Datum :=
  record [("exit_code", ofOption .int r.exitCode), ("stdout", .bytes r.stdout),
    ("stderr", .bytes r.stderr)]

end Slipway
