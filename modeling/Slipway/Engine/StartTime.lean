import Slipway.Fault
import Slipway.Text.Digit

/-!
# `Slipway.Engine.StartTime`: when a container started, as the engine reports it

The engine writes nanoseconds and a `Z`. The time is cut to microseconds, not rounded, so it is
never later than the reported one. A container that never started is reported with the year 1.
-/

set_option autoImplicit false

namespace Slipway.Engine.StartTime

/-- Each `Z` as the offset zero. -/
def withOffset (s : List Char) : List Char :=
  s.flatMap fun c => if c = 'Z' then ['+', '0', '0', ':', '0', '0'] else [c]

/-- Whether a character is a digit of any script. -/
def isDigit (c : Char) : Bool := (Text.Digit.valueOf? c).isSome

/-- A text in which every run of digits after a point is cut to six. The count is that of the digits
since the point, if only digits came since. -/
def cutFractions : Option Nat → List Char → List Char
  | _, [] => []
  | count, c :: rest =>
    if c = '.' then c :: cutFractions (some 0) rest
    else if isDigit c then
      match count with
      | none => c :: cutFractions none rest
      | some n => if n < 6 then c :: cutFractions (some (n + 1)) rest else cutFractions count rest
    else c :: cutFractions none rest

/-- The start of a container, none if it never started. -/
def parse (text : Option String) : Except Fault (Option Calendar.Timestamp) :=
  match text with
  | none => .ok none
  | some s =>
    let cs := s.toList
    if cs.isEmpty || "0001-".toList.isPrefixOf cs then .ok none
    else match Calendar.Iso.parse (String.ofList (cutFractions none (withOffset cs))) with
      | .ok t => .ok (some t)
      | .error e => .error (.defect (.notATimestamp e))

end Slipway.Engine.StartTime
