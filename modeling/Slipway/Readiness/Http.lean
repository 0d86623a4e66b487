import Slipway.Readiness.Basic
import Slipway.Scanner

/-!
# `Slipway.Readiness.Http`: waiting for an HTTP answer

Requests are made one after the other, with an interval after each, while the deadline has not
expired. A request waits for its answer no longer than the deadline allows, but at least ten
milliseconds. A request that gets no answer, or another answer than the expected one, is repeated.
-/

set_option autoImplicit false

namespace Slipway.Readiness.Http

open Slipway.World (Reply)

/-- The least time that a request waits for its answer. -/
def leastTimeout : Int := 10 * Clock.millisecond

/-- How long a request made now waits for its answer. -/
def timeout (s : Settings) (d : Deadline) (now : Int) : Int :=
  max leastTimeout (min (Clock.ofSeconds s.httpRequestTimeout) (d.remaining now))

/-- Whether an answer is the expected one. -/
def isExpected (p : HttpProbe) (status : Int) (body : String) : Bool :=
  status == p.expectedStatus && (match p.expectedBody with
    | none => true
    | some part => occurs part.toList body.toList)

/-- When a request made now is over, and whether it got the expected answer; a fault that is not one
of requests ends the wait. -/
def meet (p : HttpProbe) (reply : Reply) (timeout now : Int) : Int × Except Fault Bool :=
  match reply with
  | .answer status body delay =>
    if timeout < delay then (Clock.after now timeout, .ok false)
    else (Clock.after now delay, .ok (isExpected p status body))
  | .fault (.request _ _) => (now, .ok false)
  | .fault e => (now, .error e)

/-- The interval between requests. -/
def interval (p : HttpProbe) (s : Settings) : Int :=
  Clock.ofSeconds (p.pollInterval.getD s.httpPollInterval)

/-- Makes requests to a URL from a moment on. If no time goes by between two requests the wait is
stalled. -/
def poll (scene : Scene) (p : HttpProbe) (url : String) (d : Deadline) (now : Int) : Ending :=
  if _h : d.isExpired now then .failed now (unmet p.describe d none)
  else
    let limit := timeout scene.settings d now
    let met := meet p (scene.world.replyAt url now) limit now
    Ending.after now (.request ⟨p.method, url, p.headers, limit, p.verifyTls⟩) <|
      match met.2 with
      | .error e => .failed met.1 e
      | .ok true => .well met.1
      | .ok false =>
        let next := d.sleep met.1 (interval p scene.settings)
        if _hn : now < next then poll scene p url d next else .failed now (.defect .stalled)
termination_by (d.expiry - now).toNat
decreasing_by
  have : now < d.expiry := Deadline.lt_expiry_of_not_expired _h
  have : now < next := _hn
  simp only [next, met, limit] at this
  omega

/-- Waits for an answer. The port has to be published. -/
def wait (scene : Scene) (p : HttpProbe) (d : Deadline) (now : Int) : Ending :=
  match scene.container.endpoint p.port with
  | .error e => .failed now e
  | .ok address => poll scene p (p.scheme.name ++ "://" ++ address ++ p.path) d now

end Slipway.Readiness.Http
