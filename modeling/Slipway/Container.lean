import Slipway.Calendar.Basic
import Slipway.Fault
import Slipway.Port

/-!
# `Slipway.Container`: a started container

What the runtime says of a container once it runs: its id, the host at which its published ports
are reachable, the port table, and when it started. Looking up a port is a pure read of the table.
-/

set_option autoImplicit false

namespace Slipway

/-- A started container. The port table goes from port keys to host ports. -/
structure Container where
  id : String
  host : String
  ports : List (String × Int)
  startedAt : Option Calendar.Timestamp
deriving DecidableEq, Repr

namespace Container

/-- The host port of a port, or the failure that it is not published. -/
def resolve (c : Container) (p : Port) : Except Fault Int :=
  match c.ports.lookup p.key with
  | some n => .ok n
  | none => .error (.failure (.portNotPublished p.key))

/-- The address of a port: host and host port. -/
def endpoint (c : Container) (p : Port) : Except Fault String :=
  (c.resolve p).map fun n => c.host ++ ":" ++ toString n

end Container
end Slipway
