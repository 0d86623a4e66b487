import Slipway.Readiness.Basic

/-!
# `Slipway.Readiness.Group`: several waits at the same time

The members of a group wait at the same time against a child of the deadline. The first of them that
ends with more than the failure to be ready cancels the child, since the others cannot help any
more. The group ends when its last member does.

`settle` says what a group ends with, given how its members ended: a fault that is no failure comes
before a failure, a failure before the failure to be ready, and of two alike the earlier counts. The
conditions that were not reached are all named.
-/

set_option autoImplicit false

namespace Slipway.Readiness.Group

open Slipway.World (Trace)

/-- How grave the end of a member is for its group. -/
inductive Weight where
  /-- The condition was reached. -/
  | fine
  /-- The condition was not reached: the others still count. -/
  | short (unmet : List String) (reason : Option String)
  /-- An expected failure: the group cannot succeed any more. -/
  | fatal
  /-- Anything else: the group is given up. -/
  | foreign
  /-- An interrupt: the group is given up, but its members are not told. -/
  | interrupt
deriving DecidableEq, Repr

/-- The weight of an end. -/
def weigh : Option Fault → Weight
  | none => .fine
  | some (.failure (.notReady unmet _ reason)) => .short unmet reason
  | some (.failure _) => .fatal
  | some (.interrupt _) => .interrupt
  | some _ => .foreign

/-- The earlier of two ends, the first of two at the same moment. -/
def earlier (a b : Ending) : Ending := if b.stop < a.stop then b else a

/-- The earliest of some ends, the first of several at the same moment. -/
def earliest? : List Ending → Option Ending
  | [] => none
  | e :: rest => some (rest.foldl earlier e)

/-- Whether an end decides its group. -/
def isDecisive (e : Ending) : Bool :=
  match weigh e.fault with
  | .fatal | .foreign | .interrupt => true
  | .fine | .short _ _ => false

/-- The moment at which the child is cancelled, given how the members would end if it were not. A
member that does something at the moment of the end does not see it yet. -/
def cancelMoment (members : List Ending) : Option Int :=
  match earliest? (members.filter isDecisive) with
  | none => none
  | some e => if weigh e.fault = .interrupt then none else some (e.stop + Clock.overshoot)

/-- Whether an end is given up by its group. -/
def isForeign (e : Ending) : Bool :=
  match weigh e.fault with
  | .foreign | .interrupt => true
  | _ => false

/-- Whether an end is an expected failure other than not to be ready. -/
def isFatal (e : Ending) : Bool := weigh e.fault = .fatal

/-- The conditions that an end says were not reached. -/
def unmetOf (e : Ending) : List String :=
  match weigh e.fault with
  | .short unmet _ => unmet
  | _ => []

/-- Why an end says that a condition was not reached. -/
def reasonOf (e : Ending) : Option String :=
  match weigh e.fault with
  | .short _ (some r) => if r = "" then none else some r
  | _ => none

/-- Ends in the order in which they came. -/
def inOrder (members : List Ending) : List Ending :=
  members.mergeSort fun a b => a.stop ≤ b.stop

/-- What a group ends with. -/
def settle (d : Deadline) (members : List Ending) : Option Fault :=
  let ends := inOrder members
  match ends.find? isForeign with
  | some e => e.fault
  | none =>
    match ends.find? isFatal with
    | some e => e.fault
    | none =>
      match ends.flatMap unmetOf with
      | [] => none
      | unmet =>
        let reasons := ends.filterMap reasonOf
        some (.failure (.notReady unmet (some d.total)
          (if reasons.isEmpty then none else some ("; ".intercalate reasons))))

/-- The moment at which the last member ends; a group does not end before it starts. -/
def lastStop (now : Int) (members : List Ending) : Int :=
  members.foldl (fun t e => max t e.stop) now

/-- A group as a whole. -/
def join (d : Deadline) (now : Int) (members : List Ending) : Ending :=
  ⟨members.flatMap Ending.trace, lastStop now members, settle d members⟩

/-- Waits with several members, each a wait with a deadline. The members are run once as if the
child were never cancelled, which tells when it is, and then with that. -/
def wait (members : List (Deadline → Int → Ending)) (d : Deadline) (now : Int) : Ending :=
  let child := d.child now
  let alone := members.map fun m => m child now
  match cancelMoment alone with
  | none => join d now alone
  | some t => join d now (members.map fun m => m (child.cancelAt (some t)) now)

end Slipway.Readiness.Group
