import Slipway.Settings.Basic
import Slipway.Settings.EnvFile
import Slipway.Text.Lowercase

/-!
# `Slipway.Settings.Environment`: settings from the environment

A setting is given by the environment variable of its name with a prefix, in any case, or else by
such a variable in a file.
-/

set_option autoImplicit false

namespace Slipway.Settings.Environment

open Slipway.Text.Utf8 (Bytes)

/-- What the names of the variables start with. -/
def leader : String := "CONTAINERS_"

/-- The value of a variable, whatever the case of its name; the last such variable counts. -/
def valueOf? (known : List (String × Option String)) (name : String) : Option String :=
  let key := Text.Lowercase.ofString name
  match (known.reverse.find? fun v => Text.Lowercase.ofString v.1 == key) with
  | some (_, value) => value
  | none => none

/-- The settings that the environment and a file's variables give, by name. -/
def fields (environment : List (String × String)) (file : List EnvFile.Binding) :
    Validation.Fields :=
  let known := environment.map fun e => (e.1, some e.2)
  Settings.names.filterMap fun name =>
    ((valueOf? known (leader ++ name)).or (valueOf? file (leader ++ name))).map
      fun value => (.text name, .text value)

/-- The variables that the bytes of a file define, or what is wrong with them. -/
def fileVariables (environment : List (String × String)) (file : Option Bytes) :
    Except Fault (List EnvFile.Binding) :=
  match file with
  | none => .ok []
  | some b =>
    match Text.Utf8.toString? b with
    | .ok text => .ok (EnvFile.resolve environment (EnvFile.bindings text))
    | .error e => .error (.defect (.notUtf8 e))

/-- The settings of a process with an environment and a file of variables. -/
def settings (environment : List (String × String)) (file : Option Bytes) :
    Except Fault Settings :=
  match fileVariables environment file with
  | .error e => .error e
  | .ok known => Settings.ofFields (fields environment known)

end Slipway.Settings.Environment
