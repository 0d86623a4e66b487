/-!
# `Slipway.Binary64.Basic`: 64-bit floating-point numbers as data

A number of the binary64 format is kept as what it denotes: a sign, a mantissa below `2 ^ 53` and
an exponent of two. Every operation is exact arithmetic on naturals followed by one rounding,
`ofRatio`, to the nearest number of the format, a tie to the even mantissa. So equality is
decidable, and nothing depends on the machine's own floating-point unit.
-/

set_option autoImplicit false

namespace Slipway

/-- A binary64 number. `finite s m e` is `± m * 2 ^ e`; the operations below produce the canonical
form, in which `m` has 53 bits or `e` is the least exponent, `-1074`. -/
inductive Binary64 where
  | finite (negative : Bool) (mantissa : Nat) (exponent : Int)
  | infinite (negative : Bool)
  | nan
deriving DecidableEq, Repr

namespace Binary64

/-- The least exponent: the smallest positive number is `2 ^ leastExponent`. -/
def leastExponent : Int := -1074

/-- The greatest exponent of a finite number. -/
def greatestExponent : Int := 971

/-- Zero, with a sign. -/
def zero (negative : Bool) : Binary64 := .finite negative 0 leastExponent

instance : Inhabited Binary64 := ⟨zero false⟩

/-- `num / den`, rounded to the nearest natural, a tie to the even one. -/
def roundQuotient (num den : Nat) : Nat :=
  let q := num / den
  let r := num % den
  if 2 * r < den then q
  else if den < 2 * r then q + 1
  else if q % 2 = 0 then q else q + 1

/-- `num / den * 2 ^ (-e)` as a fraction. -/
def scaled (num den : Nat) (e : Int) : Nat × Nat :=
  if 0 ≤ e then (num, den * Nat.pow 2 e.toNat) else (num * Nat.pow 2 (-e).toNat, den)

/-- The number of the format nearest to `± num / den`, a tie to the even mantissa; infinite beyond
the greatest finite number. -/
def ofRatio (negative : Bool) (num den : Nat) : Binary64 :=
  if num = 0 then zero negative else
  let spread : Int := (num.log2 : Int) - (den.log2 : Int)
  let e₀ := max (spread - 53) leastExponent
  let s := scaled num den e₀
  let e := if Nat.pow 2 53 ≤ s.1 / s.2 then e₀ + 1 else e₀
  let t := scaled num den e
  let m := roundQuotient t.1 t.2
  let r : Nat × Int := if m = Nat.pow 2 53 then (Nat.pow 2 52, e + 1) else (m, e)
  if greatestExponent < r.2 then .infinite negative else .finite negative r.1 r.2

/-- The number nearest to a natural. -/
def ofNat (n : Nat) : Binary64 := ofRatio false n 1

/-- The number nearest to an integer. -/
def ofInt (n : Int) : Binary64 := ofRatio (n < 0) n.natAbs 1

/-- The number nearest to `m * 10 ^ e` with a sign. Exponents beyond the range of the format are
cut off first, so a long exponent costs nothing. -/
def ofDecimal (negative : Bool) (m : Nat) (e : Int) : Binary64 :=
  if m = 0 then zero negative else
  let size : Int := (Nat.toDigits 10 m).length
  if 400 < size + e then .infinite negative
  else if size + e < -400 then zero negative
  else if 0 ≤ e then ofRatio negative (m * Nat.pow 10 e.toNat) 1
  else ofRatio negative m (Nat.pow 10 (-e).toNat)

/-- The magnitude of a finite number as a fraction. -/
def ratio (m : Nat) (e : Int) : Nat × Nat :=
  if 0 ≤ e then (m * Nat.pow 2 e.toNat, 1) else (m, Nat.pow 2 (-e).toNat)

/-- The opposite number. -/
def neg : Binary64 → Binary64
  | finite s m e => finite (!s) m e
  | infinite s => infinite (!s)
  | nan => nan

/-- The product, rounded once. -/
def mul : Binary64 → Binary64 → Binary64
  | nan, _ => nan
  | _, nan => nan
  | infinite s, infinite t => infinite (s != t)
  | infinite s, finite t m _ => if m = 0 then nan else infinite (s != t)
  | finite s m _, infinite t => if m = 0 then nan else infinite (s != t)
  | finite s m e, finite t n f =>
    let r := ratio (m * n) (e + f)
    ofRatio (s != t) r.1 r.2

/-- A finite number as an integer over a power of two, which is the same for two exponents that are
not less than `least`. -/
def aligned (s : Bool) (m : Nat) (e least : Int) : Int :=
  let n : Int := m * Nat.pow 2 (e - least).toNat
  if s then -n else n

/-- The sum, rounded once. Zeros of unlike signs give the positive one, as does every sum of
opposite numbers. -/
def add : Binary64 → Binary64 → Binary64
  | nan, _ => nan
  | _, nan => nan
  | infinite s, infinite t => if s = t then infinite s else nan
  | infinite s, finite _ _ _ => infinite s
  | finite _ _ _, infinite t => infinite t
  | finite s m e, finite t n f =>
    let least := min e f
    let sum := aligned s m e least + aligned t n f least
    if sum = 0 then zero (s && t)
    else
      let r := ratio sum.natAbs least
      ofRatio (sum < 0) r.1 r.2

/-- The value of a finite number times `unit`, rounded to the nearest integer. -/
def scaledInt (unit : Nat) (s : Bool) (m : Nat) (e : Int) : Int :=
  let r := ratio m e
  let n : Int := roundQuotient (r.1 * unit) r.2
  if s then -n else n

/-- The integer part of a finite number, toward zero. -/
def integerPart (s : Bool) (m : Nat) (e : Int) : Int :=
  let r := ratio m e
  let n : Int := (r.1 / r.2 : Nat)
  if s then -n else n

/-- Whether a finite number has no fraction. -/
def isIntegral (m : Nat) (e : Int) : Bool :=
  let r := ratio m e
  r.1 % r.2 == 0

/-- Whether the magnitude `m * 2 ^ e` is less than `n * 2 ^ f`. -/
def magnitudeLt (m : Nat) (e : Int) (n : Nat) (f : Int) : Bool :=
  let a := ratio m e
  let b := ratio n f
  a.1 * b.2 < b.1 * a.2

/-- The order of numbers: nothing is less or greater than `nan`, and the zeros are equal. -/
def lt : Binary64 → Binary64 → Bool
  | nan, _ => false
  | _, nan => false
  | infinite s, infinite t => s && !t
  | infinite s, finite _ _ _ => s
  | finite _ _ _, infinite t => !t
  | finite s m e, finite t n f =>
    match s, t with
    | false, false => magnitudeLt m e n f
    | true, true => magnitudeLt n f m e
    | true, false => m != 0 || n != 0
    | false, true => false

/-- Numeric equality: `nan` differs from itself, and the zeros are equal. -/
def eqv : Binary64 → Binary64 → Bool
  | nan, _ => false
  | _, nan => false
  | a, b => !lt a b && !lt b a

/-- Whether a number is zero, of either sign. -/
def isZero : Binary64 → Bool
  | finite _ m _ => m == 0
  | _ => false

end Binary64
end Slipway
