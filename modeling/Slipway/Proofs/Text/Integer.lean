import Mathlib.Data.List.TakeWhile
import Slipway.Text.Integer

/-!
# `Slipway.Proofs.Text.Integer`: what an integer literal is

`Writes` says of a text that it writes an integer: blanks, a sign or none, digits with single
underscores between them, blanks, and no more digits than are allowed. `literal_eq_ok_iff` states
that the reader of literals takes exactly these texts and gives the integer that they write.

The reader takes as many digits as there are (`digitRun_of_numeral`), and what it takes is a numeral
(`reads_of_digitRun`). No blank, sign or underscore is a digit, so the parts of a literal cannot be
taken for one another. -/

set_option autoImplicit false

namespace Slipway.Text.Integer

open Slipway.Text (isPlainBlank)

/-- Digits with single underscores between them, with the values of the digits. -/
inductive Numeral : List Char → List Nat → Prop where
  | last {c : Char} {d : Nat} (h : Digit.valueOf? c = some d) : Numeral [c] [d]
  | digit {c : Char} {d : Nat} {s : List Char} {ds : List Nat} (h : Digit.valueOf? c = some d)
      (rest : Numeral s ds) : Numeral (c :: s) (d :: ds)
  | underscore {c : Char} {d : Nat} {s : List Char} {ds : List Nat} (h : Digit.valueOf? c = some d)
      (rest : Numeral s ds) : Numeral (c :: '_' :: s) (d :: ds)

/-- A sign, with whether it is that of a negative number. It may be left out. -/
inductive Sign : List Char → Bool → Prop where
  | none : Sign [] false
  | plus : Sign ['+'] false
  | minus : Sign ['-'] true

/-- Whether a text writes an integer. -/
def Writes (s : List Char) (n : Int) : Prop :=
  ∃ before mark digits after negative ds, s = before ++ (mark ++ (digits ++ after)) ∧
    (∀ c ∈ before, isPlainBlank c = true) ∧ Sign mark negative ∧ Numeral digits ds ∧
    (∀ c ∈ after, isPlainBlank c = true) ∧ ds.length ≤ maxDigits ∧
    n = signed negative (Digit.number 10 ds)

/-! ### Classes of characters -/

/-- The code points of blanks. -/
def blankPoints : List Nat := [9, 10, 11, 12, 13, 32] ++ wideBlanks

/-- A blank is one of the points that are listed. -/
theorem mem_blankPoints {c : Char} (h : isPlainBlank c = true) : c.toNat ∈ blankPoints := by
  simp only [isPlainBlank, isAsciiBlank, Bool.or_eq_true, Bool.and_eq_true, decide_eq_true_eq,
    beq_iff_eq, List.contains_eq_mem] at h
  rw [blankPoints, List.mem_append]
  cases h with
  | inl hascii =>
    left
    simp only [List.mem_cons, List.not_mem_nil, or_false]
    omega
  | inr hwide => exact .inr hwide

/-- A blank is no digit. -/
theorem valueOf?_of_blank {c : Char} (h : isPlainBlank c = true) : Digit.valueOf? c = none := by
  have hpoints : ∀ n ∈ blankPoints, Digit.zeros.find? (fun z => z ≤ n && n < z + 10) = none := by
    decide
  rw [Digit.valueOf?, hpoints c.toNat (mem_blankPoints h)]
  rfl

/-- A blank is neither an underscore nor a sign. -/
theorem ne_of_blank {c : Char} (h : isPlainBlank c = true) : c ≠ '_' ∧ c ≠ '+' ∧ c ≠ '-' := by
  have hne : ∀ x, isPlainBlank x = false → c ≠ x := by
    intro x hx heq
    rw [heq, hx] at h
    cases h
  exact ⟨hne '_' (by decide), hne '+' (by decide), hne '-' (by decide)⟩

/-! ### Digits -/

section
variable {s t : List Char} {ds : List Nat} {c : Char}

/-- A numeral starts with a digit. -/
theorem Numeral.head (h : Numeral s ds) :
    ∃ c rest d, s = c :: rest ∧ Digit.valueOf? c = some d := by
  cases h with
  | last h => exact ⟨_, _, _, rfl, h⟩
  | digit h _ => exact ⟨_, _, _, rfl, h⟩
  | underscore h _ => exact ⟨_, _, _, rfl, h⟩

/-- Whether digits end before a text. -/
def EndsDigits (rest : List Char) : Prop :=
  ∀ c ∈ rest.head?, Digit.valueOf? c = none ∧ c ≠ '_'

/-- A numeral is read to its end. -/
theorem digitRun_of_numeral (h : Numeral s ds) (b : Bool) {rest : List Char}
    (hrest : EndsDigits rest) :
    digitRun Digit.valueOf? b (s ++ rest) = some (ds, rest) := by
  have hstop : digitRun Digit.valueOf? true rest = some ([], rest) := by
    cases rest with
    | nil => rfl
    | cons c rest =>
      obtain ⟨hvalue, hne⟩ := hrest c rfl
      simp [digitRun, hvalue, hne]
  have hunderscore : Digit.valueOf? '_' = none := by decide
  -- By the numeral: a digit at the end, a digit with more after it, or a digit and an underscore.
  induction h generalizing b with
  | last h => simp [digitRun, h, hstop]
  | digit h _ ih => simp [digitRun, h, ih true]
  | underscore h _ ih => simp [digitRun, h, hunderscore, ih false]

/-- What digits are read from, and which: a numeral, or, after a digit, what may follow it. -/
inductive Reads : Bool → List Char → List Nat → Prop where
  | nothing : Reads true [] []
  | numeral {b : Bool} {s : List Char} {ds : List Nat} (h : Numeral s ds) : Reads b s ds
  | underscore {s : List Char} {ds : List Nat} (h : Numeral s ds) : Reads true ('_' :: s) ds

/-- What is read without a digit before it is a numeral. -/
theorem Reads.numeral_of_first (h : Reads false s ds) : Numeral s ds := by
  cases h with
  | numeral h => exact h

/-- What was read after a digit makes a numeral with it. -/
theorem Reads.digit {d : Nat} (h : Reads true s ds) (hc : Digit.valueOf? c = some d) :
    Numeral (c :: s) (d :: ds) := by
  cases h with
  | nothing => exact .last hc
  | numeral h => exact .digit hc h
  | underscore h => exact .underscore hc h

/-- What a run reads is a numeral, and the rest is what it leaves. -/
theorem reads_of_digitRun {b : Bool} {rest : List Char}
    (h : digitRun Digit.valueOf? b s = some (ds, rest)) :
    ∃ read, s = read ++ rest ∧ Reads b read ds := by
  induction s generalizing b ds with
  | nil =>
    -- An underscore is read only after a digit, and the run may stop only there.
    cases b with
    | true =>
      cases h
      exact ⟨[], rfl, .nothing⟩
    | false => cases h
  | cons c s ih =>
    rw [digitRun] at h
    cases hc : Digit.valueOf? c with
    | some d =>
      simp only [hc] at h
      obtain ⟨r, hr, heq⟩ := Option.map_eq_some_iff.mp h
      cases heq
      obtain ⟨read, hs, hreads⟩ := ih hr
      exact ⟨c :: read, by rw [hs]; rfl, .numeral (hreads.digit hc)⟩
    | none =>
      simp only [hc] at h
      cases b with
      | false => split at h <;> cases h
      | true =>
        split at h
        · rename_i hmark
          obtain ⟨read, hs, hreads⟩ := ih h
          rw [hmark, hs]
          exact ⟨'_' :: read, rfl, .underscore hreads.numeral_of_first⟩
        · cases h
          exact ⟨[], rfl, .nothing⟩

end

/-! ### Literals -/

/-- Blanks before a text that does not start with one are what is dropped from it. -/
theorem dropWhile_blanks {before rest : List Char} (hbefore : ∀ c ∈ before, isPlainBlank c = true)
    (hrest : ∀ c ∈ rest.head?, isPlainBlank c = false) :
    (before ++ rest).dropWhile isPlainBlank = rest := by
  rw [List.dropWhile_append_of_pos hbefore]
  cases rest with
  | nil => rfl
  | cons c rest =>
    have hc : isPlainBlank c = false := hrest c rfl
    simp [hc]

section
variable {mark digits rest : List Char} {negative : Bool} {ds : List Nat}

/-- A sign is one character at most, and no blank; digits start with none either. -/
theorem head_of_sign (hmark : Sign mark negative) (hdigits : Numeral digits ds) :
    ∀ c ∈ (mark ++ (digits ++ rest)).head?, isPlainBlank c = false := by
  intro c hc
  -- Behind a sign or without one: a sign, or the first digit.
  cases hmark with
  | plus =>
    cases hc
    decide
  | minus =>
    cases hc
    decide
  | none =>
    obtain ⟨first, more, d, rfl, hvalue⟩ := hdigits.head
    cases hc
    rw [← Bool.not_eq_true]
    intro hblank
    rw [valueOf?_of_blank hblank] at hvalue
    cases hvalue

/-- The sign at the front of a text that goes on with a digit. -/
theorem sign_of_numeral (hmark : Sign mark negative) (hdigits : Numeral digits ds) :
    sign (mark ++ (digits ++ rest)) = (negative, digits ++ rest) := by
  -- Without a sign the first character is a digit, and so it is no sign.
  cases hmark with
  | plus => rfl
  | minus => rfl
  | none =>
    obtain ⟨c, more, d, hs, hc⟩ := hdigits.head
    have hminus : c ≠ '-' := by
      intro h
      rw [h, show Digit.valueOf? '-' = none by decide] at hc
      cases hc
    have hplus : c ≠ '+' := by
      intro h
      rw [h, show Digit.valueOf? '+' = none by decide] at hc
      cases hc
    rw [hs, sign.eq_def]
    simp [hminus, hplus]

end

/-- What stands before the rest after a sign is one. -/
theorem exists_sign (s : List Char) : ∃ mark, s = mark ++ (sign s).2 ∧ Sign mark (sign s).1 := by
  unfold sign
  split
  · exact ⟨['-'], rfl, .minus⟩
  · exact ⟨['+'], rfl, .plus⟩
  · exact ⟨[], rfl, .none⟩

/-- A text that is read as a literal writes the integer that is read. -/
theorem writes_of_literal {s : List Char} {n : Int} (h : literal s = .ok n) : Writes s n := by
  simp only [literal] at h
  split at h
  · cases h
  rename_i ds rest hrun
  split at h
  · cases h
  rename_i hcount
  split at h
  · rename_i hblank
    cases h
    obtain ⟨mark, hs, hmark⟩ := exists_sign (s.dropWhile isPlainBlank)
    obtain ⟨digits, ht, hreads⟩ := reads_of_digitRun hrun
    -- Blanks, a sign, digits, blanks.
    have hparts : s = s.takeWhile isPlainBlank ++ (mark ++ (digits ++ rest)) := by
      rw [← ht, ← hs, List.takeWhile_append_dropWhile]
    have hrest : ∀ c ∈ rest, isPlainBlank c = true :=
      List.dropWhile_eq_nil_iff.mp (List.isEmpty_iff.mp hblank)
    exact ⟨s.takeWhile isPlainBlank, mark, digits, rest, _, ds, hparts,
      fun _ hc => List.mem_takeWhile_imp hc, hmark, hreads.numeral_of_first, hrest,
      Nat.not_lt.mp hcount, rfl⟩
  · cases h

/-- The integer that a text writes is read from it. -/
theorem literal_of_writes {s : List Char} {n : Int} (h : Writes s n) : literal s = .ok n := by
  obtain ⟨before, mark, digits, after, negative, ds, hs, hbefore, hmark, hdigits, hafter, hcount,
      hn⟩ := h
  have hends : EndsDigits after := by
    intro c hc
    have hblank : isPlainBlank c = true := hafter c (List.mem_of_mem_head? hc)
    exact ⟨valueOf?_of_blank hblank, (ne_of_blank hblank).1⟩
  have htail : after.dropWhile isPlainBlank = [] := List.dropWhile_eq_nil_iff.mpr hafter
  rw [literal, hs, dropWhile_blanks hbefore (head_of_sign hmark hdigits)]
  simp only [sign_of_numeral hmark hdigits, digitRun_of_numeral hdigits false hends, htail,
    if_neg (Nat.not_lt.mpr hcount), List.isEmpty_nil, if_true]
  rw [hn]

/-- The reader of literals takes the texts that write an integer, and gives that integer. -/
theorem literal_eq_ok_iff {s : List Char} {n : Int} : literal s = .ok n ↔ Writes s n :=
  ⟨writes_of_literal, literal_of_writes⟩

end Slipway.Text.Integer
