import Slipway.Dump
import Slipway.Validation.Spec

/-!
# `Slipway.Catalog.Redis`: a Redis server

Ready when it says so in its log, or when the container engine's healthcheck, a ping, succeeds.
-/

set_option autoImplicit false

namespace Slipway.Catalog

/-- A spec with a startup timeout, which has to be positive. -/
def withTimeout (s : Spec) (timeout : Option Binary64) : Checked Spec :=
  (Validation.nullable Validation.positiveNumber (Datum.ofOption .float timeout)).under
      (.key "startup_timeout")
    |>.map fun t => { s with startupTimeout := t }

/-- The options of a Redis server. -/
structure Redis where
  tag : String
  useHealthcheck : Bool
  startupTimeout : Option Binary64
deriving DecidableEq, Repr

namespace Redis

/-- The tag of the image that is used unless another is asked for. -/
def defaultTag : String := "7.2"

/-- The port of the server. -/
def port : Port := .tcp 6379

/-- A check of options. -/
def check : Validation.Check Redis :=
  Validation.record "Redis" fun fields =>
    (fun tag useHealthcheck startupTimeout => { tag, useHealthcheck, startupTimeout })
      <$> Validation.optional "tag" defaultTag Validation.string fields
      <*> Validation.optional "use_healthcheck" false Validation.boolean fields
      <*> Validation.optional "startup_timeout" none (Validation.nullable Validation.number) fields

/-- The options as a record. -/
def dump (r : Redis) : Datum :=
  .record [("tag", .text r.tag), ("use_healthcheck", .bool r.useHealthcheck),
    ("startup_timeout", Datum.ofOption .float r.startupTimeout)]

/-- How the engine checks the server's health: a ping every half second. -/
def ping : Healthcheck where
  test := ["redis-cli", "ping"]
  interval := Binary64.ofRatio false 1 2
  timeout := Binary64.ofNat 5
  retries := 3
  startPeriod := Binary64.zero false

/-- The spec of the server. -/
def spec (r : Redis) : Checked Spec :=
  let base := { Spec.ofImage "redis" r.tag with exposedPorts := [port] }
  withTimeout
    (if r.useHealthcheck then { base with healthcheck := some ping, waitFor := [.healthcheck] }
     else { base with waitFor := [.onStdout "Ready to accept connections"] })
    r.startupTimeout

end Redis
end Slipway.Catalog
