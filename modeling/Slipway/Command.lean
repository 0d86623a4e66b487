import Slipway.Condition
import Slipway.Text.Utf8

/-!
# `Slipway.Command`: what is done to a started container

A step is a command that runs inside the container or a payload that is copied into it. A command
may name a completion, which judges the command itself, and conditions of readiness, which judge the
container after it.
-/

set_option autoImplicit false

namespace Slipway

open Slipway.Text.Utf8 (Bytes)

/-- When a command counts as done. -/
inductive Completion where
  | exitCode (code : Int)
  /-- A text that has to appear in the command's own output. -/
  | output (stream : Stream) (text : String)
  /-- A delay after the command. -/
  | sleep (millis : Nat)
deriving DecidableEq, Repr

/-- A command to run inside a container. -/
structure Command where
  argv : List String
  completion : Option Completion
  readiness : List Condition
  user : Option String
  workdir : Option String
  description : Option String
deriving Repr

namespace Command

instance : Inhabited Command := ⟨⟨[], none, [], none, none, none⟩⟩

/-- A command without conditions. -/
def plain (argv : List String) : Command := ⟨argv, none, [], none, none, none⟩

/-- A command that has to exit with zero. -/
def checked (argv : List String) : Command := { plain argv with completion := some (.exitCode 0) }

/-- The command in words: its description if it has one that is not empty. -/
def display (c : Command) : String :=
  match c.description with
  | some d => if d = "" then " ".intercalate c.argv else d
  | none => " ".intercalate c.argv

end Command

/-- Bytes to write to an absolute path inside a container. -/
structure Payload where
  target : String
  content : Bytes
  mode : Int
deriving DecidableEq, Repr

namespace Payload

/-- The payload in words. -/
def display (p : Payload) : String :=
  "copy " ++ toString p.content.length ++ " bytes to " ++ p.target

/-- The permissions of a file that nothing else is said of: octal 644. -/
def defaultMode : Int := 0o644

end Payload

/-- One step of an injection. -/
inductive Step where
  | command (c : Command)
  | copy (p : Payload)
deriving Repr, Inhabited

namespace Step

/-- The step in words. -/
def display : Step → String
  | command c => c.display
  | copy p => p.display

end Step
end Slipway
