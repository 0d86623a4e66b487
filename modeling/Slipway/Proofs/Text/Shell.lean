import Mathlib.Data.List.Forall2
import Slipway.Text.Shell

/-!
# `Slipway.Proofs.Text.Shell`: what is quoted is read as one word

`Spells` says of a piece of a command line that it is one word of it, whatever follows after a
blank. A text without blanks, quotes and backslashes spells itself (`spells_plain`). Quoted, every
text spells itself (`spells_quote`): between single quotes nothing has a meaning but the single
quote, and for that one `quote` leaves the quotes and comes back.

`splitFrom_line` puts pieces together. A command line that consists of pieces with a blank after
each is read as their words, followed by the words of the rest. -/

set_option autoImplicit false

namespace Slipway.Text.Shell

/-- Whether a word that stands before a text ends there. -/
def EndsWord (rest : List Char) : Prop := ∀ c ∈ rest.head?, isSeparator c = true

/-- Whether a piece of a command line is one word of it: whatever ends the word after the piece,
reading gives the word and goes on. -/
def Spells (piece word : List Char) : Prop :=
  ∀ rest, EndsWord rest →
    splitFrom .outside [] (piece ++ rest) = (splitFrom .outside [] rest).map (word :: ·)

/-- Whether a character has no meaning to a reader of words. -/
def isPlain (c : Char) : Bool := !isSeparator c && c != '\'' && c != '"' && c != '\\'

/-- What is safe without quotes is plain. -/
theorem isPlain_of_isSafe {c : Char} (h : isSafe c = true) : isPlain c = true := by
  have hne : ∀ d, isSafe d = false → c ≠ d := by
    intro d hd heq
    rw [heq, hd] at h
    cases h
  simp [isPlain, isSeparator, hne ' ' (by decide), hne '\t' (by decide), hne '\n' (by decide),
    hne '\r' (by decide), hne '\'' (by decide), hne '"' (by decide), hne '\\' (by decide)]

/-! ### Steps of a reader -/

section
variable {acc rest : List Char} {c : Char}

/-- A word ends with the line. -/
theorem endsWord_nil : EndsWord [] := by
  intro c hc
  cases hc

/-- A word ends at a blank. -/
theorem endsWord_blank (rest : List Char) : EndsWord (' ' :: rest) := by
  intro c hc
  cases hc
  rfl

/-- A blank between words is skipped. -/
theorem splitFrom_separator (h : isSeparator c = true) :
    splitFrom .outside acc (c :: rest) = splitFrom .outside [] rest := by
  have hc : c ≠ '\\' := by
    intro heq
    rw [heq] at h
    cases h
  rw [splitFrom.eq_def]
  simp [hc, h]

/-- What ends a word leaves it as it was read. -/
theorem splitFrom_word_of_endsWord (h : EndsWord rest) :
    splitFrom .word acc rest = (splitFrom .outside [] rest).map (acc.reverse :: ·) := by
  cases rest with
  | nil => rfl
  | cons c rest =>
    have hsep : isSeparator c = true := h c rfl
    have hc : c ≠ '\\' := by
      intro heq
      rw [heq] at hsep
      cases hsep
    rw [splitFrom_separator hsep, splitFrom.eq_def]
    simp [hc, hsep]

/-- A plain character goes on with a word. -/
theorem splitFrom_word_plain (h : isPlain c = true) :
    splitFrom .word acc (c :: rest) = splitFrom .word (c :: acc) rest := by
  simp only [isPlain, Bool.and_eq_true, Bool.not_eq_true', bne_iff_ne] at h
  obtain ⟨⟨⟨hsep, hsingle⟩, hdouble⟩, hback⟩ := h
  rw [splitFrom.eq_def]
  simp [hsep, hsingle, hdouble, hback]

/-- A plain character starts a word. -/
theorem splitFrom_outside_plain (h : isPlain c = true) :
    splitFrom .outside acc (c :: rest) = splitFrom .word (c :: acc) rest := by
  simp only [isPlain, Bool.and_eq_true, Bool.not_eq_true', bne_iff_ne] at h
  obtain ⟨⟨⟨hsep, hsingle⟩, hdouble⟩, hback⟩ := h
  rw [splitFrom.eq_def]
  simp [hsep, hsingle, hdouble, hback]

/-- Plain characters are added to the word. -/
theorem splitFrom_word_append_plain {s : List Char} (h : ∀ c ∈ s, isPlain c = true) :
    splitFrom .word acc (s ++ rest) = splitFrom .word (s.reverse ++ acc) rest := by
  induction s generalizing acc with
  | nil => rfl
  | cons c s ih =>
    have hrest : ∀ d ∈ s, isPlain d = true := fun d hd => h d (List.mem_cons_of_mem c hd)
    rw [List.cons_append, splitFrom_word_plain (h c List.mem_cons_self), ih hrest]
    simp

/-- Between single quotes a text is kept as it is. -/
theorem splitFrom_singleQuoted (s : List Char) :
    splitFrom .singleQuoted acc (s.flatMap quoteChar ++ '\'' :: rest)
      = splitFrom .word (s.reverse ++ acc) rest := by
  induction s generalizing acc with
  | nil => simp [splitFrom]
  | cons c s ih =>
    by_cases hc : c = '\''
    · -- The quotes are left, the single quote stands in double ones, and new quotes are opened.
      have hstep : ∀ more, splitFrom .singleQuoted acc (quoteChar '\'' ++ more)
          = splitFrom .singleQuoted ('\'' :: acc) more := by
        intro more
        simp [quoteChar, splitFrom, isSeparator]
      rw [hc, List.flatMap_cons, List.append_assoc, hstep, ih]
      simp
    · have hstep : ∀ more, splitFrom .singleQuoted acc (quoteChar c ++ more)
          = splitFrom .singleQuoted (c :: acc) more := by
        intro more
        simp [quoteChar, hc, splitFrom]
      rw [List.flatMap_cons, List.append_assoc, hstep, ih]
      simp

end

/-! ### Pieces of a command line -/

/-- A text without blanks, quotes and backslashes spells itself. -/
theorem spells_plain {s : List Char} (hs : s ≠ []) (h : ∀ c ∈ s, isPlain c = true) :
    Spells s s := by
  intro rest hrest
  cases s with
  | nil => exact absurd rfl hs
  | cons c s =>
    have hs' : ∀ d ∈ s, isPlain d = true := fun d hd => h d (List.mem_cons_of_mem c hd)
    rw [List.cons_append, splitFrom_outside_plain (h c List.mem_cons_self),
      splitFrom_word_append_plain hs', splitFrom_word_of_endsWord hrest]
    simp

/-- A text in single quotes spells itself. -/
theorem spells_singleQuoted (s : List Char) :
    Spells ('\'' :: (s.flatMap quoteChar ++ ['\''])) s := by
  intro rest hrest
  have hopen : splitFrom .outside [] ('\'' :: (s.flatMap quoteChar ++ '\'' :: rest))
      = splitFrom .singleQuoted [] (s.flatMap quoteChar ++ '\'' :: rest) := by
    rw [splitFrom.eq_def]
    simp [isSeparator]
  show splitFrom .outside [] ('\'' :: (s.flatMap quoteChar ++ ['\''] ++ rest)) = _
  rw [List.append_assoc, List.singleton_append, hopen, splitFrom_singleQuoted, List.append_nil,
    splitFrom_word_of_endsWord hrest, List.reverse_reverse]

/-- Every text is one word when it is quoted, and that word is the text. -/
theorem spells_quote (s : List Char) : Spells (quote s) s := by
  unfold quote
  split
  · rename_i hempty
    rw [List.isEmpty_iff.mp hempty]
    exact spells_singleQuoted []
  · rename_i hne
    split
    · rename_i hsafe
      have hs : s ≠ [] := fun heq => hne (List.isEmpty_iff.mpr heq)
      exact spells_plain hs fun c hc => isPlain_of_isSafe (List.all_eq_true.mp hsafe c hc)
    · exact spells_singleQuoted s

/-- Pieces with a blank after each. -/
def line (pieces : List (List Char)) : List Char := pieces.flatMap fun piece => piece ++ [' ']

/-- A line of pieces is read as their words, followed by the words of what comes after it. -/
theorem splitFrom_line {pieces words : List (List Char)} (h : List.Forall₂ Spells pieces words)
    (rest : List Char) :
    splitFrom .outside [] (line pieces ++ rest)
      = (splitFrom .outside [] rest).map (words ++ ·) := by
  induction h with
  | nil => simp [line]
  | @cons piece _ pieces _ hpiece _ ih =>
    have hline : line (piece :: pieces) ++ rest = piece ++ ' ' :: (line pieces ++ rest) := by
      simp [line]
    rw [hline, hpiece _ (endsWord_blank _), splitFrom_separator rfl, ih, Option.map_map]
    rfl

end Slipway.Text.Shell
