import Slipway.Binary64.Fixed
import Slipway.Calendar.Iso
import Slipway.Issue
import Slipway.Text.Integer
import Slipway.Text.Quoted
import Slipway.Text.Utf8

/-!
# `Slipway.Fault`: what can go wrong

A `Failure` is an expected way for a start to fail; a lifecycle reports it as its outcome. A `Fault`
is a failure or anything else that stops the work: an HTTP request that got no answer, a refusal of
the container engine, a mistake in the data, an interrupt. `message` gives the words of each.
-/

set_option autoImplicit false

namespace Slipway

open Slipway.Text.Utf8 (Bytes)

/-- An expected way for a start to fail. -/
inductive Failure where
  | general (text : String)
  | runtimeUnavailable (text : String)
  | createFailed (image reason : String)
  | startFailed (id reason : String)
  | execFailed (command : List String) (exitCode : Option Int) (stdout stderr : Bytes)
      (reason : Option String)
  | notReady (unmet : List String) (timeout : Option Binary64) (reason : Option String)
  | portNotPublished (key : String)
deriving DecidableEq, Repr

/-- The first twelve characters of an id, by which a container is named in messages. -/
def shortId (id : String) : String := String.ofList (id.toList.take 12)

namespace Failure

/-- Why a command failed: the reason if one is given, else the exit code. -/
def execDetail (exitCode : Option Int) (reason : Option String) : String :=
  let code := "exit code " ++ (match exitCode with
    | some n => toString n
    | none => "None")
  match reason with
  | some r => if r = "" then code else r
  | none => code

/-- What a message says of a failure. -/
def message : Failure → String
  | general text => text
  | runtimeUnavailable text => text
  | createFailed image reason => "Runtime rejected container for " ++ image ++ ": " ++ reason
  | startFailed id reason => "Container " ++ shortId id ++ " failed to start: " ++ reason
  | execFailed command exitCode _ _ reason =>
    "Command " ++ Text.Quoted.ofStrings command ++ " failed: " ++ execDetail exitCode reason
  | notReady unmet timeout reason =>
    "Readiness not reached"
      ++ (match timeout with
        | some t => " within " ++ t.fixed 1 ++ "s"
        | none => "")
      ++ (match reason with
        | some r => if r = "" then "" else " (" ++ r ++ ")"
        | none => "")
      ++ "; unmet: " ++ ", ".intercalate unmet
  | portNotPublished key => "Port " ++ key ++ " was not declared as exposed"

end Failure

/-- The refusals of a container engine, from the most general to the most special. -/
inductive EngineRefusal where
  /-- The engine could not be used at all. -/
  | unusable
  /-- The engine refused a request. -/
  | rejected
  /-- The thing asked for does not exist. -/
  | notFound
  /-- The image asked for does not exist. -/
  | imageNotFound
deriving DecidableEq, Repr

namespace EngineRefusal

/-- Whether the engine answered at all. -/
def isAnswer : EngineRefusal → Bool
  | unusable => false
  | _ => true

/-- Whether something asked for does not exist. -/
def isNotFound : EngineRefusal → Bool
  | notFound | imageNotFound => true
  | _ => false

end EngineRefusal

/-- A mistake in the data or in how it is used. -/
inductive Defect where
  /-- Data that does not fit a model. -/
  | invalid (model : String) (issues : List Issue)
  | notUtf8 (fault : Text.Utf8.Fault)
  | notAnInteger (text : String) (fault : Text.Integer.Fault)
  /-- A text that is no integer in a base other than ten. -/
  | notANumeral (base : Nat) (text : String)
  /-- A number was asked of a text of no characters. -/
  | emptyNumeral
  | notANumber (text : String)
  | notAMoment
  | notATimestamp (fault : Calendar.Iso.Fault)
  | unsupportedCondition (label : String)
  /-- An integer was asked of an infinite number. -/
  | infiniteInteger
  /-- An integer was asked of what is no number. -/
  | nanInteger
  /-- The quotient of two integers is beyond all floating-point numbers. -/
  | quotientTooLarge
  /-- An integer has too many digits to be written into a text. -/
  | integerTooLong
  /-- The clock cannot sleep as long as it was asked to. -/
  | sleepTooLong
  | missingKey (key : String)
  /-- A pair was expected. -/
  | notAPair (actual : Nat)
  /-- An integer was asked of something of a kind that has none. -/
  | noInteger (kind : String)
  /-- A named member was asked of something of a kind that has none. -/
  | noMembers (kind : String)
  /-- An operation was asked of something of a kind that does not have it. -/
  | noOperation (kind operation : String)
  /-- The items were asked of something of a kind that has none. -/
  | noItems (kind : String)
  /-- An item was looked for in something of a kind that has none. -/
  | noContents (kind : String)
  | emptyPattern
  | unclosedBracketHost
  | badBracketHost
  | shortAddressInBrackets
  | invalidHostAddress (host : String)
  | ambiguousHost (authority : String)
  | portNotNumeric (port : String)
  | portRange
  | unknownLevel (text : String)
  | notALevel (text : String)
  | fieldOverflow
  | notYaml
  | notACodePoint
  | exit (code : Int)
  /-- A wait polls without end and without time going by. -/
  | stalled
deriving DecidableEq, Repr

namespace Defect

/-- What a message says of a text that is no integer in a base. The text is shown quoted, cut after
two hundred characters. -/
def numeralMessage (base : Nat) (text : String) : String :=
  "invalid literal for int() with base " ++ toString base ++ ": "
    ++ String.ofList ((Text.Quoted.encode text.toList).take 200)

/-- What a message says of a text that is no integer. -/
def integerMessage (text : String) : Text.Integer.Fault → String
  | .notALiteral => numeralMessage 10 text
  | .tooManyDigits n =>
    "Exceeds the limit (4300 digits) for integer string conversion: value has " ++ toString n
      ++ " digits; use sys.set_int_max_str_digits() to increase the limit"

/-- What a message says of a defect. -/
def message : Defect → String
  | invalid model issues =>
    toString issues.length ++ " validation errors for " ++ model
  | notUtf8 fault => fault.message
  | notAnInteger text fault => integerMessage text fault
  | notANumeral base text => numeralMessage base text
  | emptyNumeral => "string index out of range"
  | notANumber text => "could not convert string to float: " ++ Text.Quoted.ofString text
  | notAMoment => "'NoneType' object has no attribute 'groupdict'"
  | notATimestamp fault => fault.message
  | unsupportedCondition label => "Unsupported wait condition: " ++ label
  | infiniteInteger => "cannot convert float infinity to integer"
  | nanInteger => "cannot convert float NaN to integer"
  | quotientTooLarge => "integer division result too large for a float"
  | integerTooLong =>
    "Exceeds the limit (4300 digits) for integer string conversion; "
      ++ "use sys.set_int_max_str_digits() to increase the limit"
  | sleepTooLong => "timestamp too large to convert to C PyTime_t"
  | missingKey key => Text.Quoted.ofString key
  | notAPair n =>
    if 2 < n then "too many values to unpack (expected 2)"
    else "not enough values to unpack (expected 2, got " ++ toString n ++ ")"
  | noInteger kind =>
    "int() argument must be a string, a bytes-like object or a real number, not '" ++ kind ++ "'"
  | noMembers kind =>
    if kind = "str" then "string indices must be integers, not 'str'"
    else if kind = "list" then "list indices must be integers or slices, not str"
    else "'" ++ kind ++ "' object is not subscriptable"
  | noOperation kind operation =>
    "'" ++ kind ++ "' object has no attribute '" ++ operation ++ "'"
  | noItems kind => "'" ++ kind ++ "' object is not iterable"
  | noContents kind => "argument of type '" ++ kind ++ "' is not iterable"
  | emptyPattern => "pattern must not be empty"
  | unclosedBracketHost => "Invalid IPv6 URL"
  | badBracketHost => "IPvFuture address is invalid"
  | shortAddressInBrackets => "An IPv4 address cannot be in brackets"
  | invalidHostAddress host =>
    Text.Quoted.ofString host ++ " does not appear to be an IPv4 or IPv6 address"
  | ambiguousHost authority =>
    "netloc '" ++ authority ++ "' contains invalid characters under NFKC normalization"
  | portNotNumeric port =>
    "Port could not be cast to integer value as " ++ Text.Quoted.ofString port
  | portRange => "Port out of range 0-65535"
  | unknownLevel text => "Unknown level: " ++ Text.Quoted.ofString text
  | notALevel text => "Level not an integer or a valid string: " ++ text
  | fieldOverflow => "overflow in number field"
  | notYaml => "not a YAML document"
  | notACodePoint => "chr() arg not in range(0x110000)"
  | exit code => toString code
  | stalled => "no progress"

end Defect

/-- Anything that stops the work. -/
inductive Fault where
  | failure (f : Failure)
  /-- An HTTP request that got no answer, by the name of its cause. -/
  | request (name text : String)
  | engine (refusal : EngineRefusal) (text : String)
  | defect (d : Defect)
  /-- Any other error, by its name. -/
  | other (name text : String)
  | interrupt (text : String)
deriving DecidableEq, Repr

instance : Inhabited Fault := ⟨.defect .stalled⟩

namespace Fault

/-- What a message says of a fault. -/
def message : Fault → String
  | failure f => f.message
  | request _ text => text
  | engine _ text => text
  | defect d => d.message
  | other _ text => text
  | interrupt text => text

/-- Whether the fault says that something took too long. One that waits for a result with a time
limit cannot tell it from the limit. -/
def isTimeout : Fault → Bool
  | other name _ => name == "TimeoutError"
  | _ => false

/-- Whether the fault is an interrupt, which no cleanup holds up. -/
def isInterrupt : Fault → Bool
  | interrupt _ => true
  | _ => false

/-- The text of an error raised with some arguments: the only one, or all of them in brackets. -/
def argumentsText : List String → String
  | [] => ""
  | [a] => a
  | args => "(" ++ ", ".intercalate (args.map Text.Quoted.ofString) ++ ")"

/-- The text of an engine's refusal: the message, and the explanation in brackets. -/
def refusalText (message : String) (explanation : Option String) : String :=
  match explanation with
  | some e => if e = "" then message else message ++ " (\"" ++ e ++ "\")"
  | none => message

end Fault

namespace Checked

/-- The value of a check of a model, or the fault that the data does not fit it. -/
def get {α : Type} (model : String) : Checked α → Except Fault α
  | valid a => .ok a
  | invalid issues => .error (.defect (.invalid model issues))

end Checked
end Slipway
