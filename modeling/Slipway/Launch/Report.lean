import Slipway.Launch.Launcher
import Slipway.World.Report
import Slipway.World.Script

/-!
# `Slipway.Launch.Report`: launches written in JSON

A report tells how a launch ended, what it showed, which containers it still held, and what
happened. -/

set_option autoImplicit false

namespace Slipway.Launch.Report

open Slipway.Json.Marked (ofTexts)

/-- Something shown. -/
def notice : Notice → Json
  | .line s => .text s
  | .panel s title => .object [("panel", .text s), ("title", .text title)]
  | .table title columns rows => .object [("table", .text title), ("columns", ofTexts columns),
      ("rows", .list (rows.map ofTexts))]

/-- The end of a launch: its code, or the parts of a fault. -/
def ending : Except Fault Int → List (String × Json)
  | .ok code => [("exit", .int code)]
  | .error e => World.Script.members (World.Report.fault e)

/-- A launch. -/
def ofRun (r : Except Fault Int × Option Launcher) : Json :=
  let l := r.2.getD .fresh
  .object (ending r.1 ++ [("console", .list (l.shown.map notice))]
    ++ (if r.2.isSome then [("held", ofTexts (l.held.map Held.id))] else [])
    ++ World.Report.ofTrace l.now l.trace)

end Slipway.Launch.Report
