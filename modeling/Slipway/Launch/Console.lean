import Slipway.Lifecycle
import Slipway.Plan

/-!
# `Slipway.Launch.Console`: what a launch shows

A launch shows lines, panels and tables. Styles stand in brackets in their texts, and are left to
the console that prints them. A console reads the brackets of all texts that it is given, and not
only those that are meant as a style: one that ends a style where none has begun is refused. So a
notice may fail to be shown, and what a console refuses is a parameter here. -/

set_option autoImplicit false

namespace Slipway.Launch

/-- Something shown. -/
inductive Notice where
  | line (text : String)
  | panel (text title : String)
  | table (title : String) (columns : List String) (rows : List (List String))
deriving DecidableEq, Repr

namespace Notice

/-- A text in a style. -/
def styled (style text : String) : String := "[" ++ style ++ "]" ++ text ++ "[/" ++ style ++ "]"

/-- The plan has no file. -/
def noPlan (file : String) : Notice := .line ("[bold red]Fatal: " ++ file ++ " not found.[/]")

/-- What is about to be launched. -/
def opening (settings : Settings) (plan : Plan) : Notice :=
  let entry := fun (name value : String) => "\n" ++ name ++ ": " ++ styled "blue" value
  .panel (styled "bold cyan" "Container Modules"
      ++ entry "Plan" settings.specFile
      ++ entry "Services" (toString plan.services.length)
      ++ entry "Startup timeout" (settings.startupTimeout.fixed 0 ++ "s"))
    "Launch"

/-- Where the ports of a container can be reached. -/
def endpoints (c : Container) : String :=
  ", ".intercalate (c.ports.map fun e => e.1 ++ " → " ++ c.host ++ ":" ++ toString e.2)

/-- The row of a service: whether it is ready, and where, or why not. -/
def row (entry : ServiceEntry) (o : Outcome) : List String :=
  if o.ok then [entry.label, styled "green" "ready", (o.container.map endpoints).getD ""]
  else [entry.label, styled "bold red" "failed", (o.failure.map Failure.message).getD ""]

/-- How the starts of all services ended. -/
def services (plan : Plan) (outcomes : List Outcome) : Notice :=
  .table "Services" ["Service", "State", "Endpoints"]
    ((plan.services.zip outcomes).map fun (entry, o) => row entry o)

/-- All services are ready. -/
def allReady : Notice :=
  .line (styled "dim green" "✓ All services ready. Ctrl+C to stop.")

/-- A signal ends the launch. -/
def signalled (number : Nat) : Notice :=
  .line ("\n" ++ styled "bold orange1"
    ("🛑 Signal " ++ toString number ++ " received. Shutting down..."))

/-- A container is about to be removed. -/
def removing (id imageRef : String) : Notice :=
  .line ("🧹 Removing container: " ++ shortId id ++ " (" ++ imageRef ++ ")...")

/-- A container could not be removed. -/
def notRemoved (e : Fault) : Notice := .line ("❌ Error during cleanup: " ++ e.message)

/-- All containers have been dealt with. -/
def cleaned : Notice := .line "✅ Cleanup complete."

end Notice

/-- What notices are shown on. It may refuse one with a fault. -/
structure Console where
  refusal? : Notice → Option Fault

namespace Console

/-- Whether a notice is shown. -/
def Shows (c : Console) (n : Notice) : Prop := c.refusal? n = none

instance (c : Console) (n : Notice) : Decidable (c.Shows n) :=
  decidable_of_iff ((c.refusal? n).isNone = true) Option.isNone_iff_eq_none

/-- A console that keeps the notices as they are, and refuses none. -/
def keeping : Console := ⟨fun _ => none⟩

end Console
end Slipway.Launch
