import Slipway.Binary64.Basic
import Slipway.Text.Digit

/-!
# `Slipway.Binary64.Shortest`: the fewest digits that read back

The reals that round to a number form an interval around it. Its shortest text is a point of the
coarsest decimal grid that meets the interval, and of two points the nearer. If any point of a grid
lies in the interval, so does one of the number's two neighbours on that grid, so only these two
are tried.
-/

set_option autoImplicit false

namespace Slipway.Binary64.Shortest

/-- The interval of reals that round to `m * 2 ^ e`, in quarters of `2 ^ e`: its ends, and whether
they belong to it. -/
structure Interval where
  lower : Nat
  upper : Nat
  closed : Bool
deriving DecidableEq, Repr

/-- The lower half of the interval is shorter where the spacing of the numbers doubles. -/
def interval (m : Nat) (e : Int) : Interval where
  lower := if m = Nat.pow 2 52 ∧ leastExponent < e then 4 * m - 1 else 4 * m - 2
  upper := 4 * m + 2
  closed := m % 2 == 0

/-- `n * 10 ^ p` as a fraction. -/
def decimal (n : Nat) (p : Int) : Nat × Nat :=
  if 0 ≤ p then (n * Nat.pow 10 p.toNat, 1) else (n, Nat.pow 10 (-p).toNat)

/-- Whether `n * 10 ^ p` lies in the interval of `m * 2 ^ e`. -/
def readsBack (m : Nat) (e : Int) (n : Nat) (p : Int) : Bool :=
  let i := interval m e
  let unit := ratio 1 (e - 2)
  let d := decimal n p
  let low := i.lower * unit.1 * d.2
  let high := i.upper * unit.1 * d.2
  let here := d.1 * unit.2
  if i.closed then low ≤ here && here ≤ high else low < here && here < high

/-- How many digits stand before the point of the fraction `num / den`: the `k` with
`10 ^ (k - 1) ≤ num / den < 10 ^ k`. -/
def decimalPoint (num den : Nat) : Int :=
  if den ≤ num then (Nat.toDigits 10 (num / den)).length
  else
    let d := (Nat.toDigits 10 (den / num)).length - 1
    if den ≤ num * Nat.pow 10 d then 1 - (d : Int) else - (d : Int)

/-- The neighbour of `m * 2 ^ e` on the grid of multiples of `10 ^ p` that reads back, the nearer if
both do, the even one if they are equally near. -/
def onGrid? (m : Nat) (e p : Int) : Option Nat :=
  let v := ratio m e
  let w := if 0 ≤ p then (v.1, v.2 * Nat.pow 10 p.toNat) else (v.1 * Nat.pow 10 (-p).toNat, v.2)
  let below := w.1 / w.2
  let above := below + 1
  match readsBack m e below p, readsBack m e above p with
  | true, true => some (roundQuotient w.1 w.2)
  | true, false => some below
  | false, true => some above
  | false, false => none

/-- The grids with `n`, `n + 1`, … digits, at most `fuel` of them, and the first that has a point.
-/
def search (m : Nat) (e k : Int) : Nat → Nat → Nat × Int
  | 0, n => ((onGrid? m e (k - n)).getD 0, k - n)
  | fuel + 1, n =>
    match onGrid? m e (k - n) with
    | some d => (d, k - n)
    | none => search m e k fuel (n + 1)

/-- The digits `d` and the power `p` of the shortest text `d * 10 ^ p` of `m * 2 ^ e`, `m` not zero.
Seventeen digits always suffice. -/
def digits (m : Nat) (e : Int) : Nat × Int :=
  let v := ratio m e
  search m e (decimalPoint v.1 v.2) 16 1

/-- How a number's digits are laid out as text. -/
structure Layout where
  /-- The least position of the point that is written positionally. -/
  leastPoint : Int
  /-- The greatest. -/
  greatestPoint : Int
  /-- Texts of infinity and of what is no number. -/
  infinity : String
  notANumber : String

/-- Plain numbers: positional from `0.0001` on and below `10 ^ 16`, else with an exponent of at
least two digits. -/
def plain : Layout := ⟨-3, 16, "inf", "nan"⟩

/-- The digits of a natural without the zeros at its end, at least one. -/
def significant (n : Nat) : List Char :=
  match ((Nat.toDigits 10 n).reverse.dropWhile (· == '0')).reverse with
  | [] => ['0']
  | ds => ds

/-- Digits with the point after the first `point` of them. -/
def layOut (l : Layout) (ds : List Char) (point : Int) : List Char :=
  if l.leastPoint ≤ point && point ≤ l.greatestPoint then
    if point ≤ 0 then '0' :: '.' :: (List.replicate (-point).toNat '0' ++ ds)
    else
      let whole := ds.take point.toNat
      let fraction := ds.drop point.toNat
      whole ++ List.replicate (point.toNat - whole.length) '0' ++
        '.' :: (if fraction.isEmpty then ['0'] else fraction)
  else
    let exponent := point - 1
    let sign := if exponent < 0 then '-' else '+'
    let body := match ds with
      | [] => ['0']
      | [d] => [d]
      | d :: rest => d :: '.' :: rest
    body ++ 'e' :: sign :: (Text.Digit.atLeast 2 exponent.natAbs).toList

/-- The shortest text of a number in a layout. -/
def text (l : Layout) : Binary64 → String
  | nan => l.notANumber
  | infinite s => (if s then "-" else "") ++ l.infinity
  | finite s m e =>
    let body :=
      if m = 0 then ['0', '.', '0']
      else
        let d := digits m e
        layOut l (significant d.1) ((Nat.toDigits 10 d.1).length + d.2)
    String.ofList (if s then '-' :: body else body)

end Slipway.Binary64.Shortest

namespace Slipway.Binary64

/-- The plain text of a number. -/
def toText (x : Binary64) : String := Shortest.text Shortest.plain x

end Slipway.Binary64
