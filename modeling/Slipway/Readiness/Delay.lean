import Slipway.Readiness.Basic

/-!
# `Slipway.Readiness.Delay`: waiting for a fixed time

A fixed delay says nothing of the container, so each one is noted with a warning. A delay that does
not fit into what remains of the deadline fails, but only after what remains.
-/

set_option autoImplicit false

namespace Slipway.Readiness.Delay

/-- Milliseconds as a length of time, unless the seconds are beyond all floating-point numbers. -/
def lengthOf (millis : Nat) : Except Fault Int :=
  match Binary64.ofRatio false millis 1000 with
  | .finite _ _ _ => .ok (millis * Clock.millisecond)
  | _ => .error (.defect .quotientTooLarge)

/-- The warning that a delay is used. -/
def warning (millis : Nat) : String :=
  "Using " ++ (Condition.delay millis).describe
    ++ " as readiness signal; this is unreliable under load"

/-- Waits for a fixed delay. -/
def wait (millis : Nat) (d : Deadline) (now : Int) : Ending :=
  let fail := fun (stop : Int) (reason : String) =>
    Ending.failed stop (unmet (Condition.delay millis).describe d (some reason))
  Ending.after now (.caution (warning millis)) <|
    match lengthOf millis with
    | .error e => .failed now e
    | .ok length =>
      let stop := d.sleep now length
      if d.remaining now < length then fail stop "delay exceeds startup timeout"
      else if d.isCancelled stop then fail stop "cancelled"
      else .well stop

end Slipway.Readiness.Delay
