import Slipway.Binary64.Basic

/-!
# `Slipway.Clock`: time

Moments and lengths of time are integers: whole ticks, counted from the start of the rehearsal. A
tick is so short that no two moments that a script can name in practice fall together. A timed wait
always takes a little longer than was asked for, by `overshoot`: whoever has slept until a moment
finds that the moment is past.
-/

set_option autoImplicit false

namespace Slipway

namespace Clock

/-- Ticks in a second, in a millisecond and in a nanosecond. -/
def second : Int := 1000000000000000000000
def millisecond : Int := 1000000000000000000
def nanosecond : Int := 1000000000000

/-- What a timed wait takes beyond what was asked for: a nanosecond. -/
def overshoot : Int := nanosecond

/-- A length of time that is longer than any finite number of seconds. -/
def forever : Int := Nat.pow 2 1024 * second

/-- A number of seconds, to the nearest tick. What is no number is no time. -/
def ofSeconds : Binary64 → Int
  | .finite s m e => Binary64.scaledInt second.toNat s m e
  | .infinite negative => if negative then -forever else forever
  | .nan => 0

/-- Ticks as milliseconds: the seconds as a floating-point number, times a thousand, to the nearest
integer, a tie to the even one. -/
def toMillis (t : Int) : Int :=
  match (Binary64.ofRatio (t < 0) t.natAbs second.toNat).mul (Binary64.ofNat 1000) with
  | .finite s m e => Binary64.scaledInt 1 s m e
  | _ => 0

/-- The moment at which a wait of some length ends. Nothing is waited for if the length is not
positive. -/
def after (now length : Int) : Int := if 0 < length then now + length + overshoot else now

theorem overshoot_pos : 0 < overshoot := by decide

theorem le_after (now length : Int) : now ≤ after now length := by
  unfold after overshoot nanosecond
  split <;> omega

end Clock
end Slipway
