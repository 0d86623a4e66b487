import Slipway.Clock

/-!
# `Slipway.Deadline.Basic`: how long the waits of one start may take

A deadline ends at a moment, or earlier when it is cancelled. It is shared: a wait for several
conditions gives its members a deadline of their own, a child, which ends with its parent but can be
cancelled alone.

When a deadline is cancelled is known in advance here, as a moment. So sleeping is a computation: it
ends when what was asked for is over, at once when the deadline itself is cancelled, and at the next
of the moments at which it looks, `interval` apart, when an ancestor is.
-/

set_option autoImplicit false

namespace Slipway

/-- A deadline. -/
structure Deadline where
  /-- The seconds that the outermost deadline was given. -/
  total : Binary64
  /-- The moment at which it ends. -/
  expiry : Int
  /-- The moment at which it is cancelled. -/
  cancel : Option Int
  /-- The moment at which the first of its ancestors is cancelled. -/
  outerCancel : Option Int
deriving DecidableEq, Repr

namespace Deadline

/-- How often a wait looks whether it has been cancelled. -/
def interval : Int := 100 * Clock.millisecond

/-- A wait for one interval, with what it takes beyond. -/
def slice : Int := interval + Clock.overshoot

/-- The earlier of two moments, either of which may never come. -/
def earlier : Option Int → Option Int → Option Int
  | none, t => t
  | t, none => t
  | some a, some b => some (min a b)

/-- Whether a moment has come. -/
def hasCome (moment : Option Int) (now : Int) : Bool :=
  match moment with
  | none => false
  | some t => t ≤ now

/-- A deadline some seconds from now. -/
def start (now : Int) (seconds : Binary64) : Deadline :=
  ⟨seconds, now + Clock.ofSeconds seconds, none, none⟩

/-- The moment from which the deadline counts as cancelled. -/
def cancelledFrom (d : Deadline) : Option Int := earlier d.cancel d.outerCancel

/-- Whether the deadline or an ancestor of it is cancelled. -/
def isCancelled (d : Deadline) (now : Int) : Bool := hasCome d.cancelledFrom now

/-- The time that remains. -/
def remaining (d : Deadline) (now : Int) : Int :=
  if d.isCancelled now then 0 else max 0 (d.expiry - now)

/-- The first moment, from one on, at which no time remains. -/
def overFrom (d : Deadline) (now : Int) : Int :=
  max now (match d.cancelledFrom with
    | some t => min d.expiry t
    | none => d.expiry)

/-- Whether no time remains. -/
def isExpired (d : Deadline) (now : Int) : Bool := d.remaining now ≤ 0

theorem lt_expiry_of_not_expired {d : Deadline} {now : Int} (h : ¬ d.isExpired now = true) :
    now < d.expiry := by
  have left : ¬ d.remaining now ≤ 0 := by simpa [isExpired] using h
  unfold remaining at left
  split at left <;> omega

/-- A child: what remains of the deadline, to be cancelled with it or alone. -/
def child (d : Deadline) (now : Int) : Deadline :=
  ⟨d.total, now + d.remaining now, none, d.cancelledFrom⟩

/-- The deadline, cancelled at a moment if it is not cancelled before. -/
def cancelAt (d : Deadline) (moment : Option Int) : Deadline :=
  { d with cancel := earlier d.cancel moment }

/-- The first of the moments `now`, `now + slice`, … at which something that comes at `moment` is
seen. -/
def seen (now moment : Int) : Int :=
  if moment ≤ now then now else now + (moment - now + slice - 1) / slice * slice

/-- When a wait of some length ends that is taken in slices. Each whole slice overshoots, and so
does the rest. A rest that is longer than an interval is a whole slice. -/
def slicesEnd (now length : Int) : Int :=
  let rest := length % slice
  if length ≤ 0 then now
  else if rest = 0 then now + length
  else if rest ≤ interval then now + length + Clock.overshoot
  else now + length - rest + slice

/-- When a sleep ends that is to last some time, at most what remains. -/
def sleep (d : Deadline) (now length : Int) : Int :=
  let natural := slicesEnd now (min length (d.remaining now))
  let own := match d.cancel with
    | some t => min natural (max now t)
    | none => natural
  match d.outerCancel with
  | some t => min own (seen now t)
  | none => own

/-- When a wait gives up that looks at the deadline once in an interval, and sooner if less remains.
It looks for the first time after it has waited. -/
def givesUp (d : Deadline) (now : Int) : Int :=
  let left := d.remaining now
  if left = 0 then now + Clock.overshoot
  else
    let natural := slicesEnd now left
    match d.cancelledFrom with
    | some t => min natural (seen now t)
    | none => natural

end Deadline
end Slipway
