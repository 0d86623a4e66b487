import Slipway.Settings.Basic
import Slipway.Text.Url

/-!
# `Slipway.Engine.Address`: where the engine is

The engine is reached at the address of the settings, or else at that of the environment, or else at
the socket of this machine. `host` gives the host at which the ports of its containers are
published: the one that the settings name, or that of the address if it leads over a network, or
else this machine.
-/

set_option autoImplicit false

namespace Slipway.Engine

/-- How the engine is reached: what the settings say, and the address of the environment. -/
structure Address where
  settings : Settings
  environment : String

namespace Address

/-- A text, unless it is empty. -/
def nonempty (s : Option String) : Option String := s.filter (· != "")

/-- The address of the engine, empty if none is given. -/
def text (a : Address) : String := (nonempty a.settings.dockerBaseUrl).getD a.environment

/-- Whether the engine is reached over a network by a scheme. -/
def isRemote (scheme : String) : Bool := ["tcp", "http", "https"].contains scheme

/-- The host at which published ports are reachable. -/
def host (a : Address) : Except Fault String :=
  match nonempty a.settings.hostOverride with
  | some h => .ok h
  | none =>
    match Url.parse a.text with
    | .error d => .error (.defect d)
    | .ok url => .ok (if isRemote url.scheme then url.host?.getD "localhost" else "localhost")

end Address
end Slipway.Engine
