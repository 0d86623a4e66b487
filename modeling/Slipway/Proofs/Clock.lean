import Mathlib.Tactic.Linarith
import Mathlib.Tactic.Ring
import Mathlib.Tactic.SplitIfs
import Slipway.Clock

/-!
# `Slipway.Proofs.Clock`: of two numbers of seconds the greater is no shorter

Seconds become ticks by one rounding, and rounding keeps the order (`roundQuotient_mono`). A number
of the format is less than `2 ^ 1024`, so what is finite is no longer than forever. Hence
`ofSeconds_mono`: the order of positive numbers, as numbers, is that of the lengths of time that
they name. That a number is of the format leaves out nothing that is read or computed: `ofRatio`
makes all of these (`inFormat_ofRatio`). -/

set_option autoImplicit false

namespace Slipway

namespace Binary64

/-- Whether a number is one of the format, as far as its size goes. -/
def InFormat : Binary64 → Prop
  | finite _ m e => m < Nat.pow 2 53 ∧ e ≤ greatestExponent
  | infinite _ => True
  | nan => True

instance : DecidablePred InFormat
  | finite _ m e => inferInstanceAs (Decidable (m < Nat.pow 2 53 ∧ e ≤ greatestExponent))
  | infinite _ => .isTrue trivial
  | nan => .isTrue trivial

/-- Whether a number is greater than zero. -/
def IsPositive (x : Binary64) : Prop := lt (zero false) x = true

/-- Whether a number is no greater than another, as a number. -/
def Le (x y : Binary64) : Prop := lt x y = true ∨ eqv x y = true

instance : DecidablePred IsPositive := fun _ => inferInstanceAs (Decidable (_ = true))

instance (x y : Binary64) : Decidable (x.Le y) := inferInstanceAs (Decidable (_ ∨ _))

/-! ### Rounding -/

/-- Rounding gives the whole quotient or the next number. -/
theorem roundQuotient_bounds (num den : Nat) :
    num / den ≤ roundQuotient num den ∧ roundQuotient num den ≤ num / den + 1 := by
  unfold roundQuotient
  simp only
  split
  · omega
  · split
    · omega
    · split <;> omega

/-- A greater fraction is not rounded to less. -/
theorem roundQuotient_mono {n d n' d' : Nat} (hd : 0 < d) (hd' : 0 < d') (h : n * d' ≤ n' * d) :
    roundQuotient n d ≤ roundQuotient n' d' := by
  have hn : d * (n / d) + n % d = n := Nat.div_add_mod n d
  have hn' : d' * (n' / d') + n' % d' = n' := Nat.div_add_mod n' d'
  have hr : n % d < d := Nat.mod_lt n hd
  have hr' : n' % d' < d' := Nat.mod_lt n' hd'
  have hlow := roundQuotient_bounds n d
  have hhigh := roundQuotient_bounds n' d'
  have hq : n / d ≤ n' / d' := by
    rw [Nat.le_div_iff_mul_le hd']
    refine Nat.le_of_mul_le_mul_right ?_ hd
    have hle : n / d * d ≤ n := Nat.div_mul_le_self n d
    nlinarith
  rcases Nat.lt_or_eq_of_le hq with hlt | heq
  · omega
  · -- The whole parts are the same, so the rests decide.
    have hrest : n % d * d' ≤ n' % d' * d := by
      rw [← heq] at hn'
      have hl : n * d' = n / d * (d * d') + n % d * d' := by
        conv_lhs => rw [← hn]
        ring
      have hr : n' * d = n / d * (d * d') + n' % d' * d := by
        conv_lhs => rw [← hn']
        ring
      omega
    have hhalf : d ≤ 2 * (n % d) → d' ≤ 2 * (n' % d') := by
      intro hle
      by_contra hlt
      nlinarith
    have hmore : d < 2 * (n % d) → d' < 2 * (n' % d') := by
      intro hlt
      by_contra hle
      nlinarith
    unfold roundQuotient
    simp only [heq]
    split
    · exact hhigh.1
    · rename_i hge
      have hge' : ¬ 2 * (n' % d') < d' := Nat.not_lt.mpr (hhalf (Nat.not_lt.mp hge))
      rw [if_neg hge']
      split
      · rename_i hgt
        rw [if_pos (hmore hgt)]
      · -- A tie goes to the even number, and no lower fraction is as high as a tie.
        split_ifs <;> omega

/-! ### The format -/

/-- A fraction that is scaled by a high enough exponent is less than a power of two. -/
theorem scaled_lt (num : Nat) {den k : Nat} (hden : 0 < den) {e : Int}
    (h : (num.log2 : Int) - den.log2 + 1 ≤ e + k) :
    (scaled num den e).1 / (scaled num den e).2 < Nat.pow 2 k := by
  have hnum : num < Nat.pow 2 (num.log2 + 1) := Nat.lt_log2_self
  have hlow : Nat.pow 2 den.log2 ≤ den := Nat.log2_self_le (by omega)
  unfold scaled
  -- Either the denominator grows by the power or the numerator does.
  split
  · have hpow : 0 < Nat.pow 2 e.toNat := Nat.two_pow_pos _
    rw [Nat.div_lt_iff_lt_mul (Nat.mul_pos hden hpow)]
    calc num < 2 ^ (num.log2 + 1) := hnum
      _ ≤ 2 ^ (k + (den.log2 + e.toNat)) := Nat.pow_le_pow_right (by decide) (by omega)
      _ = 2 ^ k * (2 ^ den.log2 * 2 ^ e.toNat) := by rw [Nat.pow_add, Nat.pow_add]
      _ ≤ 2 ^ k * (den * 2 ^ e.toNat) := Nat.mul_le_mul_left _ (Nat.mul_le_mul_right _ hlow)
  · have hpow : 0 < Nat.pow 2 (-e).toNat := Nat.two_pow_pos _
    rw [Nat.div_lt_iff_lt_mul hden]
    calc num * 2 ^ (-e).toNat
      _ < 2 ^ (num.log2 + 1) * 2 ^ (-e).toNat := Nat.mul_lt_mul_of_pos_right hnum hpow
      _ = 2 ^ (num.log2 + 1 + (-e).toNat) := (Nat.pow_add _ _ _).symm
      _ ≤ 2 ^ (k + den.log2) := Nat.pow_le_pow_right (by decide) (by omega)
      _ = 2 ^ k * 2 ^ den.log2 := Nat.pow_add _ _ _
      _ ≤ 2 ^ k * den := Nat.mul_le_mul_left _ hlow

/-- What is made of a fraction is a number of the format. -/
theorem inFormat_ofRatio (negative : Bool) (num : Nat) {den : Nat} (hden : 0 < den) :
    (ofRatio negative num den).InFormat := by
  have hfit : ∀ (m : Nat) (e : Int), m < Nat.pow 2 53 →
      (if greatestExponent < e then infinite negative else finite negative m e).InFormat := by
    intro m e hm
    split
    · trivial
    · exact ⟨hm, Int.not_lt.mp ‹_›⟩
  unfold ofRatio
  simp only
  split
  · exact ⟨Nat.two_pow_pos 53, by decide⟩
  · generalize hleast : max ((num.log2 : Int) - den.log2 - 53) leastExponent = e₀
    generalize he :
      (if Nat.pow 2 53 ≤ (scaled num den e₀).1 / (scaled num den e₀).2 then e₀ + 1 else e₀) = e
    have hquotient : (scaled num den e).1 / (scaled num den e).2 < Nat.pow 2 53 := by
      split at he
      · exact scaled_lt num hden (by omega)
      · subst he
        exact Nat.not_le.mp ‹_›
    -- Rounding may reach the next power of two, and then the exponent is raised instead.
    have hround := (roundQuotient_bounds (scaled num den e).1 (scaled num den e).2).2
    split
    · exact hfit _ _ (Nat.pow_lt_pow_right (by decide) (by decide))
    · exact hfit _ _ (by omega)

/-! ### Magnitudes -/

/-- The denominator of a ratio is positive. -/
theorem ratio_pos (m : Nat) (e : Int) : 0 < (ratio m e).2 := by
  unfold ratio
  split
  · exact Nat.one_pos
  · exact Nat.two_pow_pos _

/-- A product with a power of two has room in a larger power. -/
theorem mul_pow_le {m a b c : Nat} (hm : m < Nat.pow 2 a) (h : a + b ≤ c) :
    m * Nat.pow 2 b ≤ Nat.pow 2 c :=
  calc m * 2 ^ b ≤ 2 ^ a * 2 ^ b := Nat.mul_le_mul_right _ (Nat.le_of_lt hm)
    _ = 2 ^ (a + b) := (Nat.pow_add 2 a b).symm
    _ ≤ 2 ^ c := Nat.pow_le_pow_right (by decide) h

/-- A number of the format is no greater than `2 ^ 1024`, or any higher power. -/
theorem ratio_le {m c : Nat} {e : Int} (hm : m < Nat.pow 2 53) (he : e ≤ greatestExponent)
    (hc : 1024 ≤ c) : (ratio m e).1 ≤ Nat.pow 2 c * (ratio m e).2 := by
  unfold greatestExponent at he
  unfold ratio
  split
  · rw [Nat.mul_one]
    exact mul_pow_le hm (by omega)
  · have hone : 0 < Nat.pow 2 (-e).toNat := Nat.two_pow_pos _
    have hle : m * Nat.pow 2 0 ≤ Nat.pow 2 c := mul_pow_le hm (by omega)
    rw [show Nat.pow 2 0 = 1 from rfl, Nat.mul_one] at hle
    exact Nat.le_trans hle (Nat.le_mul_of_pos_right _ hone)

/-- What is a whole number is not rounded. -/
theorem roundQuotient_one (n : Nat) : roundQuotient n 1 = n := by
  unfold roundQuotient
  simp [Nat.mod_one]

/-- The ratio of no mantissa is zero. -/
theorem numerator_zero (e : Int) : (ratio 0 e).1 = 0 := by
  unfold ratio
  split
  · exact Nat.zero_mul _
  · rfl

/-- What is positive is not zero. -/
theorem IsPositive.isZero_eq {x : Binary64} (h : x.IsPositive) : x.isZero = false := by
  unfold IsPositive zero at h
  cases x with
  | finite s m e =>
    cases s with
    | true => cases h
    | false =>
      simp only [isZero, beq_eq_false_iff_ne]
      rintro rfl
      simp [lt, magnitudeLt, numerator_zero] at h
  | infinite s => rfl
  | nan => rfl

/-- The order of finite numbers that are not negative is that of fractions. -/
theorem le_finite_iff {m n : Nat} {e f : Int} :
    (finite false m e).Le (finite false n f) ↔
      (ratio m e).1 * (ratio n f).2 ≤ (ratio n f).1 * (ratio m e).2 := by
  simp only [Le, lt, eqv, magnitudeLt, decide_eq_true_eq, Bool.and_eq_true, Bool.not_eq_true',
    decide_eq_false_iff_not]
  omega

/-- What is no less than a positive number is no negative one. -/
theorem IsPositive.cases {x y : Binary64} (hx : x.IsPositive) (h : x.Le y) :
    y = .infinite false ∨ ∃ m e n f, x = .finite false m e ∧ y = .finite false n f := by
  -- No number is not positive, and nothing is at least as large as it.
  cases x with
  | nan => simp [Le, lt, eqv] at h
  | infinite s =>
    cases s with
    | true => cases hx
    | false =>
      cases y with
      | nan => simp [Le, lt, eqv] at h
      | infinite t => cases t <;> simp [Le, lt, eqv] at h ⊢
      | finite t n f => simp [Le, lt, eqv] at h
  | finite s m e =>
    cases s with
    | true => cases hx
    | false =>
      cases y with
      | nan => simp [Le, lt, eqv] at h
      | infinite t => cases t <;> simp [Le, lt, eqv] at h ⊢
      | finite t n f =>
        cases t with
        | false => exact .inr ⟨m, e, n, f, rfl, rfl⟩
        | true =>
          have hm := hx.isZero_eq
          simp [Le, lt, eqv, isZero] at h hm
          exact absurd h.2 hm

/-- What is at least as large as something positive is not zero. -/
theorem IsPositive.isZero_eq_of_le {x y : Binary64} (hx : x.IsPositive) (h : x.Le y) :
    y.isZero = false := by
  rcases hx.cases h with rfl | ⟨m, e, n, f, rfl, rfl⟩
  · rfl
  · -- A fraction that is no less than one above zero is none of zero.
    have hle := le_finite_iff.mp h
    simp only [IsPositive, zero, lt, magnitudeLt, decide_eq_true_eq] at hx
    simp only [isZero, beq_eq_false_iff_ne]
    rintro rfl
    rw [numerator_zero, Nat.zero_mul] at hle
    rw [numerator_zero, Nat.zero_mul] at hx
    have hpos := Nat.mul_pos (Nat.pos_of_mul_pos_right hx) (ratio_pos 0 f)
    omega

end Binary64

namespace Clock

/-- A number of seconds that is finite is no longer than forever. -/
theorem ofSeconds_le_forever {m : Nat} {e : Int} (h : (Binary64.finite false m e).InFormat) :
    ofSeconds (.finite false m e) ≤ forever := by
  have hunit : second = (second.toNat : Int) := by decide
  -- The exponent is kept as a variable, so that no step computes the power.
  obtain ⟨c, hc⟩ : ∃ c, c = 1024 := ⟨_, rfl⟩
  have hle := Binary64.ratio_le h.1 h.2 (Nat.le_of_eq hc.symm)
  have hscaled : (Binary64.ratio m e).1 * second.toNat * 1 ≤
      Nat.pow 2 c * second.toNat * (Binary64.ratio m e).2 := by
    nlinarith
  have hround := Binary64.roundQuotient_mono (Binary64.ratio_pos m e) Nat.one_pos hscaled
  rw [Binary64.roundQuotient_one] at hround
  have hforever : forever = ((Nat.pow 2 c * second.toNat : Nat) : Int) := by
    rw [forever, ← hc, Int.natCast_mul, ← hunit]
  rw [hforever]
  exact Int.ofNat_le.mpr hround

/-- Of two positive numbers of seconds the greater is no shorter. -/
theorem ofSeconds_mono {x y : Binary64} (hx : x.IsPositive) (hformat : x.InFormat) (h : x.Le y) :
    ofSeconds x ≤ ofSeconds y := by
  -- The larger number is infinite, or both are finite and are rounded from ordered ratios.
  rcases hx.cases h with rfl | ⟨m, e, n, f, rfl, rfl⟩
  · cases x with
    | nan => simp [Binary64.Le, Binary64.lt, Binary64.eqv] at h
    | infinite s =>
      cases s with
      | true => cases hx
      | false => exact Int.le_refl _
    | finite s m e =>
      cases s with
      | true => cases hx
      | false => exact ofSeconds_le_forever hformat
  · have hle := Binary64.le_finite_iff.mp h
    have hscaled : (Binary64.ratio m e).1 * second.toNat * (Binary64.ratio n f).2 ≤
        (Binary64.ratio n f).1 * second.toNat * (Binary64.ratio m e).2 := by
      nlinarith
    exact Int.ofNat_le.mpr
      (Binary64.roundQuotient_mono (Binary64.ratio_pos m e) (Binary64.ratio_pos n f) hscaled)

end Clock
end Slipway
