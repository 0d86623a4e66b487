import Slipway.Deadline.Basic
import Slipway.Settings.Basic
import Slipway.World.Trace

/-!
# `Slipway.Readiness.Basic`: waiting for a condition

A wait starts at a moment with a deadline and ends at a moment: well, or with a fault. While it
lasts it only asks; nothing is done to the container. So a wait is a function of what it meets.
-/

set_option autoImplicit false

namespace Slipway.Readiness

open Slipway.World (Trace Note Entry)

/-- What a wait meets: the container, its box, the URLs of the world and the settings. -/
structure Scene where
  container : Container
  box : World.Box
  world : World
  settings : Settings

/-- How a wait went: what was noted, when it ended, and the fault it ended with if it did. -/
structure Ending where
  trace : Trace
  stop : Int
  fault : Option Fault
deriving DecidableEq, Repr

instance : Inhabited Ending := ⟨⟨[], 0, none⟩⟩

namespace Ending

/-- A wait that ended well. -/
def well (stop : Int) : Ending := ⟨[], stop, none⟩

/-- A wait that ended with a fault. -/
def failed (stop : Int) (fault : Fault) : Ending := ⟨[], stop, some fault⟩

/-- The wait with an earlier note. -/
def after (time : Int) (note : Note) (e : Ending) : Ending :=
  { e with trace := ⟨time, note⟩ :: e.trace }

end Ending

/-- The failure that a condition was not reached. -/
def unmet (description : String) (d : Deadline) (reason : Option String) : Fault :=
  .failure (.notReady [description] (some d.total) reason)

end Slipway.Readiness
