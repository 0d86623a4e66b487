import Slipway.Readiness.Basic

/-!
# `Slipway.Readiness.Health`: waiting for the container's own healthcheck

The healthcheck is asked at once and then in intervals, and a last time when the deadline has
expired.
-/

set_option autoImplicit false

namespace Slipway.Readiness.Health

/-- How the healthcheck is called in messages. -/
def description : String := Condition.healthcheck.describe

/-- Asks from a moment on until the healthcheck decides or the deadline expires. If no time goes by
between two questions the wait is stalled. -/
def wait (scene : Scene) (d : Deadline) (now : Int) : Ending :=
  let asked := fun (status : Option String) =>
    Ending.after now (.probe scene.container.id (.health status))
  match scene.box.healthAt now with
  | .error e => asked none (.failed now e)
  | .ok none => asked none (.failed now (unmet description d (some "no healthcheck configured")))
  | .ok (some status) =>
    asked (some status) <|
      if status = "healthy" then .well now
      else if _h : d.isExpired now then
        .failed now (unmet description d (some ("last status " ++ status)))
      else
        let next := d.sleep now (Clock.ofSeconds scene.settings.healthPollInterval)
        if _hn : now < next then wait scene d next else .failed now (.defect .stalled)
termination_by (d.expiry - now).toNat
decreasing_by
  have : now < d.expiry := Deadline.lt_expiry_of_not_expired _h
  have : now < next := _hn
  omega

end Slipway.Readiness.Health
