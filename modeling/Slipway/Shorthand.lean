import Slipway.Dump
import Slipway.Rendering

/-!
# `Slipway.Shorthand`: short ways to write conditions

Each function takes the few data that matter and checks them as the fields of the record that they
stand for. The faults name that record's model.
-/

set_option autoImplicit false

namespace Slipway.Shorthand

/-- A text that has to appear in a stream. -/
def message (stream : Stream) (text : Datum) : Except Fault LogMessage :=
  (Validation.logMessageFields [(.text "stream", .text stream.name), (.text "text", text)]).get
    "LogMessage"

/-- A request to a path and port that has to be answered with a status, and with a body if one is
given. Other fields of the probe may follow. -/
def http (path port status body : Datum) (options : Validation.Fields) : Except Fault HttpProbe :=
  match Port.parse port with
  | .error e => .error e
  | .ok p =>
    (Validation.httpFields ([(.text "path", path), (.text "port", p.dump),
      (.text "expected_status", status), (.text "expected_body", body)] ++ options)).get "Http"

/-- A fixed delay in milliseconds. -/
def millis (n : Datum) : Except Fault Nat :=
  (Validation.delayFields "duration" [(.text "millis", n)]).get "Duration"

/-- What a datum is called in messages about operations that it does not have. -/
def kindName : Datum → String
  | .null => "NoneType"
  | .bool _ => "bool"
  | .int _ => "int"
  | .float _ => "float"
  | .text _ => "str"
  | .bytes _ => "bytes"
  | .date _ => "datetime.date"
  | .timestamp _ => "datetime.datetime"
  | .list _ => "list"
  | .set _ => "set"
  | .mapping _ => "dict"
  | .factory _ => "function"

/-- The whole number of thousandths in a datum, toward zero. A text stands for the number that its
thousandfold repetition writes. -/
def thousandths : Datum → Except Fault Int
  | .int n => .ok (n * 1000)
  | .bool b => .ok (if b then 1000 else 0)
  | .float x =>
    match x.mul (Binary64.ofNat 1000) with
    | .finite s m e => .ok (Binary64.integerPart s m e)
    | .infinite _ => .error (.defect .infiniteInteger)
    | .nan => .error (.defect .nanInteger)
  | .text s =>
    let repeated := (List.replicate 1000 s.toList).flatten
    match Text.Integer.literal repeated with
    | .ok n => .ok n
    | .error e => .error (.defect (.notAnInteger (String.ofList repeated) e))
  | .list _ =>
    .error (.other "TypeError"
      "int() argument must be a string, a bytes-like object or a real number, not 'list'")
  | d =>
    .error (.other "TypeError"
      ("unsupported operand type(s) for *: " ++ Text.Quoted.ofString (kindName d) ++ " and 'int'"))

/-- A fixed delay in seconds. -/
def seconds (d : Datum) : Except Fault Nat :=
  match thousandths d with
  | .ok n => millis (.int n)
  | .error e => .error e

/-- The name of the model of all conditions. -/
def conditionModel : String := "tagged-union[LogMessage,Http,Duration,Healthcheck,All]"

/-- The name of the model of all completions. -/
def completionModel : String := "tagged-union[ExitCode,OutputMessage,CmdSleep]"

/-- A condition. -/
def condition (d : Datum) : Except Fault Condition := (Validation.condition d).get conditionModel

/-- Conditions that all have to hold, at least one. -/
def allOf (ds : List Datum) : Except Fault Condition :=
  match ds.mapM condition with
  | .error e => .error e
  | .ok members =>
    ((Validation.atLeastOne (members.map .valid)).under (.key "conditions")).get "All"
      |>.map .all

/-- An exit code that a command has to have. -/
def exitCode (code : Datum) : Except Fault Completion :=
  (((Validation.integer code).map Completion.exitCode).under (.key "code")).get "ExitCode"

/-- A file system in memory. -/
def memory (target : Datum) : Except Fault Mount :=
  (((Validation.string target).map Mount.memory).under (.key "target")).get "Mount"

end Slipway.Shorthand
