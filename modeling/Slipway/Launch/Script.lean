import Slipway.Launch.Launcher
import Slipway.World.Script

/-!
# `Slipway.Launch.Script`: launches rehearsed from JSON

A script gives the files of a directory, the variables of an environment, a world and the moments of
signals in seconds. Everything in it may be left out; then one signal arrives after one second.
-/

set_option autoImplicit false

namespace Slipway.Launch

/-- A launch to rehearse. -/
structure Rehearsal where
  environment : List (String × String)
  files : Files
  world : World
  signals : List Signal

namespace Rehearsal

/-- How the launch ends, and the launcher then. Its notices are kept. -/
def run (r : Rehearsal) : Except Fault Int × Option Launcher :=
  Launch.run .keeping r.environment r.files r.world r.signals

end Rehearsal

namespace Script

open Slipway.World.Script (member members items text? seconds)

/-- The variables of an environment. -/
def environment (j : Json) : List (String × String) :=
  (members (member "env" j)).map fun m => (m.1, (text? m.2).getD "")

/-- The files of a directory. -/
def files (j : Json) : Files :=
  (members (member "files" j)).map fun m => (m.1, Json.Marked.bytes m.2)

/-- The numbers of signals in turn: to terminate, and to interrupt. -/
def numberOf (i : Nat) : Nat := if i % 2 = 0 then 15 else 2

/-- The signals at some moments. -/
def signals (j : Json) : List Signal :=
  let times := match j.get? "signals" with
    | some ts => (items ts).map seconds
    | none => [Clock.second]
  times.zipIdx.map fun (time, i) => ⟨time, numberOf i⟩

/-- A launch. -/
def rehearsal (j : Json) : Rehearsal :=
  ⟨environment j, files j, World.Script.world (member "world" j), signals j⟩

end Script
end Slipway.Launch
