import Slipway.Readiness.Delay
import Slipway.Readiness.Group
import Slipway.Readiness.Health
import Slipway.Readiness.Http
import Slipway.Readiness.Log

/-!
# `Slipway.Readiness.Evaluation`: waiting for conditions of all kinds

A condition is waited for by the wait of its kind, and a conjunction by a group. A single condition
needs no group, and nothing needs no wait. Each wait first says what it waits for, so a condition
that cannot be put in words ends its wait before anything is asked. -/

set_option autoImplicit false

namespace Slipway.Readiness

/-- Waits with members that all have to end well. -/
def waitForAll (members : List (Deadline → Int → Ending)) (d : Deadline) (now : Int) : Ending :=
  match members with
  | [] => .well now
  | [m] => m d now
  | ms => Group.wait ms d now

/-- Waits for a condition that has first to be put in words. -/
def described (c : Condition) (w : Deadline → Int → Ending) (d : Deadline) (now : Int) : Ending :=
  if c.isDescribable then w d now else .failed now (.defect .integerTooLong)

mutual

/-- Waits for a condition. The conditions without numbers can always be put in words. -/
def wait (scene : Scene) : Condition → Deadline → Int → Ending
  | .log m => Log.wait scene m
  | .http p => described (.http p) (Http.wait scene p)
  | .delay millis => described (.delay millis) (Delay.wait millis)
  | .healthcheck => Health.wait scene
  | .all members => described (.all members) (waitForAll (waits scene members))
  | .foreign label => fun _ now => .failed now (.defect (.unsupportedCondition label))

/-- The waits for some conditions. -/
def waits (scene : Scene) : List Condition → List (Deadline → Int → Ending)
  | [] => []
  | c :: rest => wait scene c :: waits scene rest

end

/-- Waits for conditions that all have to hold. -/
def waitAll (scene : Scene) (conditions : List Condition) (d : Deadline) (now : Int) : Ending :=
  waitForAll (waits scene conditions) d now

end Slipway.Readiness
