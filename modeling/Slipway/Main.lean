import Slipway.Json.Reader
import Slipway.Launch.Script

/-!
# `Slipway.Main`: the command line

The program rehearses a launch. It reads the script of the rehearsal, one line of JSON, from
standard input, prints what the launch shows, and ends with its code. A fault goes to standard
error. -/

set_option autoImplicit false

namespace Slipway

/-- The lines of what a launch shows. Styles stay as they are. -/
def Launch.Notice.lines : Launch.Notice → List String
  | .line text => [text]
  | .panel text title => [title, text]
  | .table title columns rows => title :: (columns :: rows).map (" | ".intercalate ·)

/-- The code of a process for the end of a launch. -/
def exitCode : Except Fault Int → UInt32
  | .ok code => code.toNat.toUInt32
  | .error (.defect (.exit code)) => code.toNat.toUInt32
  | .error _ => 1

/-- What goes to standard error. -/
def complaint? : Except Fault Int → Option String
  | .error (.defect (.exit _)) => none
  | .error e => some e.message
  | .ok _ => none

end Slipway

open Slipway in
/-- Rehearses the launch whose script comes from standard input. -/
def main : IO UInt32 := do
  let input ← (← IO.getStdin).getLine
  match Json.ofString? input with
  | none =>
    IO.eprintln "the script is not JSON"
    return 2
  | some script =>
    let r := (Launch.Script.rehearsal script).run
    for notice in (r.2.map (·.shown)).getD [] do
      for line in notice.lines do
        IO.println line
    match complaint? r.1 with
    | some text => IO.eprintln text
    | none => pure ()
    return exitCode r.1
