import Slipway.Deadline.Basic

/-!
# `Slipway.Deadline.Forest`: deadlines and their children

A forest keeps deadlines in the order in which they were made, each with its parent if it has one.
Cancelling a deadline cancels its descendants, whenever they were made.
-/

set_option autoImplicit false

namespace Slipway.Deadline

/-- A deadline with the position of its parent. -/
structure Node where
  total : Binary64
  expiry : Int
  cancel : Option Int
  parent : Option Nat
deriving DecidableEq, Repr

/-- Deadlines, the oldest first. A parent is older than its children. -/
structure Forest where
  nodes : List Node
deriving DecidableEq, Repr

namespace Forest

/-- No deadlines. -/
def empty : Forest := ⟨[]⟩

/-- The first moment at which the deadline at a position, or an ancestor of it, is cancelled. The
fuel is the number of deadlines that are older. -/
def cancelledFrom (f : Forest) : Nat → Option Nat → Option Int
  | _, none => none
  | 0, some _ => none
  | fuel + 1, some i =>
    match f.nodes[i]? with
    | none => none
    | some n => earlier n.cancel (cancelledFrom f fuel n.parent)

/-- The deadline at a position. -/
def get? (f : Forest) (i : Nat) : Option Deadline :=
  (f.nodes[i]?).map fun n =>
    ⟨n.total, n.expiry, n.cancel, f.cancelledFrom f.nodes.length n.parent⟩

/-- The forest with one more deadline, some seconds from now. -/
def plant (f : Forest) (now : Int) (seconds : Binary64) : Forest :=
  let d := Deadline.start now seconds
  ⟨f.nodes ++ [⟨d.total, d.expiry, none, none⟩]⟩

/-- The forest with a child of the deadline at a position. -/
def branch (f : Forest) (now : Int) (parent : Nat) : Forest :=
  match f.get? parent with
  | none => f
  | some p =>
    let d := p.child now
    ⟨f.nodes ++ [⟨d.total, d.expiry, none, some parent⟩]⟩

/-- The forest in which the deadline at a position is cancelled at a moment. -/
def cancelAt (f : Forest) (i : Nat) (moment : Int) : Forest :=
  ⟨f.nodes.modify i fun n => { n with cancel := earlier n.cancel (some moment) }⟩

/-- The forest in which the deadline at a position is to be cancelled when the clock next moves and
has reached a moment. -/
def schedule (f : Forest) (now : Int) (i : Nat) (moment : Int) : Forest :=
  f.cancelAt i (max moment (now + 1))

end Forest
end Slipway.Deadline
