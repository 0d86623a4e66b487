import Slipway.Plan
import Slipway.Text.Path
import Slipway.Yaml.Document

/-!
# `Slipway.Launch.PlanFile`: plans in files

A plan is written in YAML, in UTF-8, in a file of the directory in which the launch takes place.
-/

set_option autoImplicit false

namespace Slipway.Launch

open Slipway.Text.Utf8 (Bytes)

/-- The files of a directory by their paths. -/
abbrev Files := List (String × Bytes)

namespace Files

/-- The normal form of a path. -/
def normal (path : String) : String := String.ofList (Text.Path.normalise path.toList)

/-- The content of the file with a path. -/
def get? (files : Files) (path : String) : Option Bytes :=
  (files.find? fun f => normal f.1 == normal path).map (·.2)

/-- Whether a path is that of the directory itself, or of one in it that holds a file. -/
def isDirectory (files : Files) (path : String) : Bool :=
  normal path == "." || files.any fun f => (normal path ++ "/").isPrefixOf (normal f.1)

end Files

namespace PlanFile

/-- A fault of decoding as it is met in a file. Bytes that end inside a character are only looked at
when nothing follows, so their place is counted from the first of them. -/
def placed (e : Text.Utf8.Fault) : Text.Utf8.Fault :=
  match e.kind with
  | .unexpectedEnd => { e with start := 0 }
  | _ => e

/-- The plan that the bytes of a file write. -/
def plan (content : Bytes) : Except Fault Plan :=
  match Text.Utf8.decode content with
  | .error e => .error (.defect (.notUtf8 (placed e)))
  | .ok text =>
    match Yaml.parse text with
    | .error e => .error (.defect e)
    | .ok d => (Plan.check d).get "LaunchPlan"

/-- What is met when a directory is read like a file. -/
def directoryFault (path : String) : Fault :=
  .other "IsADirectoryError" ("[Errno 21] Is a directory: " ++ Text.Quoted.ofString path)

/-- The plan in a file, none if there is no such file. -/
def find? (files : Files) (path : String) : Option (Except Fault Plan) :=
  match files.get? path with
  | some content => some (plan content)
  | none => if files.isDirectory path then some (.error (directoryFault path)) else none

end PlanFile
end Slipway.Launch
