import Mathlib.Algebra.Ring.Nat
import Slipway.Text.Digit

/-!
# `Slipway.Proofs.Text.Digit`: the last digits of a number

`padded` writes as many digits of a number as are asked for. One digit more is one more at the end
(`padded_succ`), so by induction on their number the digits of a number are read as that number
(`mapM_padded`, and `number_padded` for decimal ones), and the first of them write it without its
last ones (`take_padded`). -/

set_option autoImplicit false

namespace Slipway.Text.Digit

variable {width n : Nat} {c : Char}

/-- The value of a digit, by its distance from zero. -/
def asciiValue (c : Char) : Nat := c.toNat - 48

/-- One digit more multiplies what stands before it by the base. -/
theorem number_append (base : Nat) (values : List Nat) (d : Nat) :
    number base (values ++ [d]) = number base values * base + d := by
  simp [number]

/-- The last of the digits is that of the ones. -/
theorem padded_succ (base width n : Nat) :
    padded base (width + 1) n = padded base width (n / base) ++ [hexDigit (n % base)] := by
  have hhigher : ∀ i, n / Nat.pow base (i + 1) = n / base / Nat.pow base i := by
    intro i
    rw [Nat.div_div_eq_div_mul]
    exact congrArg (n / ·) (Nat.pow_succ'.trans rfl)
  simp only [padded, List.range_succ_eq_map, List.map_cons, List.map_map, List.reverse_cons]
  congr 1
  · simp only [Function.comp_def, Nat.succ_eq_add_one, hhigher]
  · simp

@[simp] theorem length_padded (base width n : Nat) : (padded base width n).length = width := by
  simp [padded]

/-- What holds of all digits of a base holds of every digit of a number. -/
theorem forall_mem_padded {base : Nat} [NeZero base] {p : Char → Prop}
    (h : ∀ d < base, p (hexDigit d)) : ∀ c ∈ padded base width n, p c := by
  intro c hc
  simp only [padded, List.mem_reverse, List.mem_map] at hc
  obtain ⟨i, -, rfl⟩ := hc
  exact h _ (Nat.mod_lt _ (Nat.pos_of_neZero base))

/-- A decimal digit has its value. -/
theorem asciiValue_hexDigit : ∀ d < 10, asciiValue (hexDigit d) = d := by decide

/-- The digits of a number that has no more of them are read, and what is read is the number. -/
theorem mapM_padded {base : Nat} [NeZero base] {value? : Char → Option Nat}
    (hvalue : ∀ d < base, value? (hexDigit d) = some d) (h : n < base ^ width) :
    ∃ values, (padded base width n).mapM value? = some values ∧ number base values = n := by
  -- By the width: the last digit is the remainder, and those before it write the quotient.
  induction width generalizing n with
  | zero =>
    rw [Nat.pow_zero, Nat.lt_one_iff] at h
    exact ⟨[], rfl, h.symm⟩
  | succ width ih =>
    have hrest : n / base < base ^ width := Nat.div_lt_of_lt_mul (by rwa [Nat.pow_succ'] at h)
    have hlast : n % base < base := Nat.mod_lt _ (Nat.pos_of_neZero base)
    obtain ⟨values, hread, hnumber⟩ := ih hrest
    refine ⟨values ++ [n % base], ?_, ?_⟩
    · rw [padded_succ, List.mapM_append, hread]
      simp [hvalue _ hlast]
    · rw [number_append, hnumber, Nat.mul_comm]
      exact Nat.div_add_mod n base

/-- The decimal digits of a number that has no more of them write it. -/
theorem number_padded (h : n < 10 ^ width) :
    number 10 ((padded 10 width n).map asciiValue) = n := by
  have hvalue : ∀ d < 10, (pure (asciiValue (hexDigit d)) : Option Nat) = some d :=
    fun d hd => congrArg some (asciiValue_hexDigit d hd)
  obtain ⟨values, hread, hnumber⟩ := @mapM_padded _ _ 10 _ (fun c => pure (asciiValue c)) hvalue h
  rw [List.mapM_pure] at hread
  rwa [Option.some.inj hread]

/-- The first digits of a number are those of the number without its last ones. -/
theorem take_padded (base extra : Nat) :
    (padded base (width + extra) n).take width = padded base width (n / base ^ extra) := by
  induction extra generalizing n with
  | zero => rw [Nat.pow_zero, Nat.div_one, Nat.add_zero, List.take_of_length_le (by simp)]
  | succ extra ih =>
    rw [← Nat.add_assoc, padded_succ, List.take_append_of_le_length (by simp), ih,
      Nat.div_div_eq_div_mul,
      Nat.pow_succ']

/-! ### As many digits as are needed -/

section
variable {base : Nat} (hlow : 1 < base) (hhigh : base ≤ 10)
include hlow hhigh

/-- The digits of a number are those of its base. -/
theorem toNat_of_mem_toDigits (n : Nat) :
    ∀ c ∈ Nat.toDigits base n, 48 ≤ c.toNat ∧ c.toNat < 48 + base := by
  have hdigit : ∀ d < base, 48 ≤ d.digitChar.toNat ∧ d.digitChar.toNat < 48 + base := by
    intro d hd
    rw [Nat.toNat_digitChar_of_lt_ten (Nat.lt_of_lt_of_le hd hhigh)]
    omega
  -- By the number: the last digit is the remainder, and those before it write the quotient.
  induction n using Nat.strongRecOn with
  | ind n ih =>
    intro c hc
    rw [Nat.toDigits_eq_if hlow] at hc
    split at hc
    · rw [List.mem_singleton.mp hc]
      exact hdigit n ‹_›
    · rcases List.mem_append.mp hc with hc | hc
      · exact ih (n / base) (Nat.div_lt_self (by omega) hlow) c hc
      · rw [List.mem_singleton.mp hc]
        exact hdigit _ (Nat.mod_lt n (by omega))

/-- The digits of a number have its value. -/
theorem number_toDigits (n : Nat) :
    number base ((Nat.toDigits base n).map fun c => c.toNat - '0'.toNat) = n := by
  calc number base ((Nat.toDigits base n).map fun c => c.toNat - '0'.toNat)
      = Nat.ofDigitChars base (Nat.toDigits base n) 0 := by
        rw [number, List.foldl_map, Nat.ofDigitChars_eq_foldl]
        simp only [Nat.mul_comm]
    _ = n := Nat.ofDigitChars_toDigits hlow hhigh

end

/-- A number is written with digits. -/
theorem isDigit_toDigits {n : Nat} : ∀ c ∈ Nat.toDigits 10 n, c.isDigit = true := by
  intro c hc
  exact Nat.isDigit_of_mem_toDigits (by decide) (by decide) hc

/-- The sign of an integer as it is written. -/
def signOf (n : Int) : List Char := if n < 0 then ['-'] else []

/-- The text of an integer is its sign and its digits. -/
theorem toList_toString (n : Int) :
    (toString n).toList = signOf n ++ Nat.toDigits 10 n.natAbs := by
  unfold signOf
  -- A negative number has a sign and the digits of its size.
  cases n with
  | ofNat m =>
    have hm : ¬Int.ofNat m < 0 := Int.not_lt.mpr (Int.natCast_nonneg m)
    rw [if_neg hm]
    exact Nat.toList_repr
  | negSucc m =>
    rw [if_pos (Int.negSucc_lt_zero m)]
    show ("-" ++ toString (m + 1)).toList = _
    rw [String.toList_append]
    exact congrArg ('-' :: ·) Nat.toList_repr

/-! ### Hexadecimal digits -/

/-- A hexadecimal digit is read as its value. -/
theorem hexValue?_hexDigit : ∀ d < 16, hexValue? (hexDigit d) = some d := by decide

/-- A hexadecimal digit is ASCII. -/
theorem toNat_hexDigit : ∀ d < 16, (hexDigit d).toNat < 0x80 := by decide

/-- Four hexadecimal digits, one by one. -/
theorem padded_four (n : Nat) :
    padded 16 4 n = [hexDigit (n / 16 / 16 / 16 % 16), hexDigit (n / 16 / 16 % 16),
      hexDigit (n / 16 % 16), hexDigit (n % 16)] := by
  simp only [padded_succ]
  rfl

end Slipway.Text.Digit
