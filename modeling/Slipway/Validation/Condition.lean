import Slipway.Validation.Record

/-!
# `Slipway.Validation.Condition`: checks of ports, conditions and steps

A port may be given in short: a number, or a text such as `53/udp`. A source of steps is a command,
a payload or a factory; data that fits both a command and a payload is the one of which it sets more
fields, a command if it sets as many of either.
-/

set_option autoImplicit false

namespace Slipway.Validation

/-- The number of a port. -/
def portNumber : Check { n : Nat // 1 ≤ n ∧ n ≤ 65535 } := fun d =>
  (integer d).andThen fun n =>
    if h : 1 ≤ n ∧ n ≤ 65535 then .valid ⟨n.toNat, by omega⟩
    else if 65535 < n then .fail (.above 65535) else .fail (.below 1)

/-- The fields of a port. -/
def portFields (fields : Fields) : Checked Port :=
  (fun n p => ⟨n.1, p, n.2.1, n.2.2⟩) <$> required "port" portNumber fields
    <*> optional "protocol" .tcp (named Protocol.all Protocol.name) fields

/-- A text cut at its first slash. -/
def cutAtSlash (s : List Char) : List Char × List Char :=
  (s.takeWhile (· != '/'), (s.dropWhile (· != '/')).drop 1)

/-- The fields that a short form of a port stands for. -/
def portShorthand (s : String) : Except Defect Fields :=
  let cut := cutAtSlash s.toList
  match Text.Integer.literal cut.1 with
  | .error e => .error (.notAnInteger (String.ofList cut.1) e)
  | .ok n =>
    let protocol := if cut.2.isEmpty then "tcp" else String.ofList cut.2
    .ok [(.text "port", .int n), (.text "protocol", .text protocol)]

/-- A port. -/
def port : Check Port
  | .int n => portFields [(.text "port", .int n)]
  | .bool b => portFields [(.text "port", .bool b)]
  | .text s =>
    match portShorthand s with
    | .ok fields => portFields fields
    | .error e => .fail (.rule e.message)
  | d => record "ContainerPort" portFields d

/-- A text for the `kind` of a record that has only one. -/
def kind (word : String) (fields : Fields) : Checked Unit :=
  optional "kind" () (exactly word) fields

/-- The fields of a log message. -/
def logMessageFields (fields : Fields) : Checked LogMessage :=
  (fun _ stream text => ⟨stream, text.1, text.2⟩) <$> kind "log_message" fields
    <*> optional "stream" .stdout (named Stream.all Stream.name) fields
    <*> required "text" nonemptyString fields

/-- The fields of an HTTP probe. -/
def httpFields (fields : Fields) : Checked HttpProbe :=
  (fun _ path port status body method scheme verify headers interval =>
      { path := HttpProbe.rooted path, port, expectedStatus := status, expectedBody := body, method,
        scheme, verifyTls := verify, headers, pollInterval := interval })
    <$> kind "http" fields
    <*> optional "path" "/" string fields
    <*> required "port" port fields
    <*> optional "expected_status" 200 integer fields
    <*> optional "expected_body" none (nullable string) fields
    <*> optional "method" "GET" string fields
    <*> optional "scheme" .http (named Scheme.all Scheme.name) fields
    <*> optional "verify_tls" true boolean fields
    <*> optional "headers" [] (table string) fields
    <*> optional "poll_interval" none (nullable positiveNumber) fields

/-- The fields of a delay. -/
def delayFields (word : String) (fields : Fields) : Checked Nat :=
  (fun _ n => n) <$> kind word fields <*> required "millis" natural fields

/-- The fields of a conjunction, given the check of its members. -/
def allFields (fields : Fields) (members : Checked (List Condition)) : Checked Condition :=
  (fun _ ms => .all ms) <$> kind "all" fields <*> members

/-- The conditions that a record can be, each checked, given the check of its members. -/
def conditionAlternatives (fields : Fields) (members : Checked (List Condition)) :
    List (String × Checked Condition) :=
  [("log_message", (logMessageFields fields).map .log),
   ("http", (httpFields fields).map .http),
   ("duration", (delayFields "duration" fields).map .delay),
   ("healthcheck", (kind "healthcheck" fields).map fun _ => .healthcheck),
   ("all", allFields fields members)]

mutual

/-- A condition. -/
def condition : Datum → Checked Condition
  | .mapping entries =>
    tagged ((conditionAlternatives entries (membersField entries)).map fun a => (a.1, fun _ => a.2))
      (.mapping entries)
  | _ => .fail .notAttributes

/-- The members of a conjunction, at least one. -/
def members : Datum → Checked (List Condition)
  | .list items => atLeastOne (memberChecks 0 items)
  | .set items => atLeastOne (memberChecks 0 items)
  | _ => .fail .notTuple

/-- The field of a record that holds members. -/
def membersField : List (Datum × Datum) → Checked (List Condition)
  | [] => (Checked.fail .missing).under (.key "conditions")
  | (k, v) :: rest =>
    if Datum.isKey "conditions" k then (members v).under (.key "conditions") else membersField rest

/-- The checks of members, each placed under its position. -/
def memberChecks : Int → List Datum → List (Checked Condition)
  | _, [] => []
  | i, d :: rest => (condition d).under (.index i) :: memberChecks (i + 1) rest

/-- Checks of items, of which at least one has to succeed. -/
def atLeastOne (checks : List (Checked Condition)) : Checked (List Condition) :=
  let sound := (checks.filterMap Checked.value?).length
  if 1 ≤ sound then Checked.all checks
  else .invalid ((Checked.all checks).issues ++ [.here (.tooFewItems "Tuple" 1 sound)])

end

/-- The fields of an exit code that a command has to end with. -/
def exitCodeFields (fields : Fields) : Checked Completion :=
  (fun _ n => .exitCode n) <$> kind "exit_code" fields <*> optional "code" 0 integer fields

/-- The fields of a text that a command has to write. -/
def outputMessageFields (fields : Fields) : Checked Completion :=
  (fun _ s t => .output s t.1) <$> kind "output_message" fields
    <*> optional "stream" .stdout (named Stream.all Stream.name) fields
    <*> required "text" nonemptyString fields

/-- The completions that a record can be. -/
def completion : Check Completion :=
  tagged [("exit_code", exitCodeFields), ("output_message", outputMessageFields),
    ("sleep", fun fields => (delayFields "sleep" fields).map .sleep)]

/-- The fields of a command. -/
def commandFields (fields : Fields) : Checked Command :=
  (fun argv completion readiness user workdir description =>
      { argv, completion, readiness, user, workdir, description })
    <$> required "cmd" (tupleFrom 1 string) fields
    <*> optional "cmd_ready_condition" none (nullable completion) fields
    <*> optional "container_ready_conditions" [] (tuple condition) fields
    <*> optional "user" none (nullable string) fields
    <*> optional "workdir" none (nullable string) fields
    <*> optional "description" none (nullable string) fields

/-- A command. -/
def command : Check Command := record "ExecCommand" commandFields

/-- An absolute path. -/
def target : Check String := fun d =>
  (string d).andThen fun s =>
    if s.toList.head? = some '/' then .valid s
    else .fail (.rule ("target must be an absolute path, got " ++ Text.Quoted.ofString s))

/-- The fields of a payload. -/
def payloadFields (fields : Fields) : Checked Payload :=
  (fun target content mode => { target, content, mode })
    <$> required "target" target fields
    <*> required "content" bytes fields
    <*> optional "mode" Payload.defaultMode integer fields

/-- A payload. -/
def payload : Check Payload := record "CopyToContainer" payloadFields

/-- The fields that a record of a kind can have. -/
def knownFields (kind : String) : List String :=
  match kind with
  | "log_message" => ["kind", "stream", "text"]
  | "http" => ["kind", "path", "port", "expected_status", "expected_body", "method", "scheme",
      "verify_tls", "headers", "poll_interval"]
  | "duration" | "sleep" => ["kind", "millis"]
  | "healthcheck" => ["kind"]
  | "all" => ["kind", "conditions"]
  | "exit_code" => ["kind", "code"]
  | "output_message" => ["kind", "stream", "text"]
  | "command" => ["cmd", "cmd_ready_condition", "container_ready_conditions", "user", "workdir",
      "description"]
  | "payload" => ["target", "content", "mode"]
  | _ => []

/-- How many of some fields a record sets. -/
def fieldsSet (names : List String) (entries : Fields) : Nat :=
  (names.filter fun n => (Datum.entry? n entries).isSome).length

/-- How many fields a port sets. -/
def portFieldsSet : Datum → Nat
  | .mapping entries => fieldsSet ["port", "protocol"] entries
  | .text _ => 2
  | _ => 1

mutual

/-- How many fields a condition or completion sets, its members included. -/
def deepFieldsSet : Datum → Nat
  | .mapping entries =>
    match Datum.entry? "kind" entries with
    | some (.text k) => fieldsSet (knownFields k) entries + nestedFieldsSet entries
    | _ => 0
  | _ => 0

/-- How many fields the ports and members in some entries set. -/
def nestedFieldsSet : List (Datum × Datum) → Nat
  | [] => 0
  | (k, v) :: rest =>
    (if Datum.isKey "port" k then portFieldsSet v
     else if Datum.isKey "conditions" k || Datum.isKey "container_ready_conditions" k then
       membersFieldsSet v
     else if Datum.isKey "cmd_ready_condition" k then deepFieldsSet v else 0)
      + nestedFieldsSet rest

/-- How many fields the conditions of a list set. -/
def membersFieldsSet : Datum → Nat
  | .list items => allFieldsSet items
  | _ => 0

/-- How many fields some conditions set. -/
def allFieldsSet : List Datum → Nat
  | [] => 0
  | d :: rest => deepFieldsSet d + allFieldsSet rest

end

/-- How many fields a datum sets as a command. -/
def commandFieldsSet (entries : Fields) : Nat :=
  fieldsSet (knownFields "command") entries
    + nestedFieldsSet
      (entries.filter fun e => !Datum.isKey "port" e.1 && !Datum.isKey "conditions" e.1)

/-- A source of steps. -/
def source : Check Source := fun d =>
  match d with
  | .factory make => .valid (.factory make)
  | d =>
    match command d, payload d with
    | .valid c, .invalid _ => .valid (.step (.command c))
    | .invalid _, .valid p => .valid (.step (.copy p))
    | .valid c, .valid p =>
      match d with
      | .mapping entries =>
        if commandFieldsSet entries < fieldsSet (knownFields "payload") entries then
          .valid (.step (.copy p))
        else .valid (.step (.command c))
      | _ => .valid (.step (.command c))
    | .invalid is, .invalid js =>
      .invalid (is.map (·.under (.key "ExecCommand")) ++ js.map (·.under (.key "CopyToContainer"))
        ++ [(Issue.here .notCallable).under (.key "callable")])

end Slipway.Validation
