import Mathlib.Data.List.TakeWhile
import Slipway.Text.Cut

/-!
# `Slipway.Proofs.Text.Cut`: what stands before and after a character

A text is cut at the first occurrence of a character in one way, if what is before it lacks the
character (`before_append_cons`, `after_append_cons`).

A text is also what stands up to the last occurrence of a character, followed by `afterLast` of it.
A text that is put behind another and lacks the character only makes that part longer
(`afterLast_append`), so a text is cut at the last occurrence in one way. -/

set_option autoImplicit false

namespace Slipway.Text

variable {c : Char} {s t : List Char}

/-- A character of a text differs from one that it has not. -/
theorem bne_of_mem_of_not_mem {d : Char} (h : c ∉ s) (hd : d ∈ s) : (d != c) = true := by
  rw [bne_iff_ne]
  rintro rfl
  exact h hd

/-- Without the character all of the text comes before it. -/
theorem before_of_not_mem (h : c ∉ s) : before c s = s := by
  rw [before, List.takeWhile_eq_self_iff]
  exact fun d hd => bne_of_mem_of_not_mem h hd

/-- Before the first occurrence stands what stands before it. -/
theorem before_append_cons (h : c ∉ s) (t : List Char) : before c (s ++ c :: t) = s := by
  rw [before, List.takeWhile_append_of_pos fun d hd => bne_of_mem_of_not_mem h hd]
  simp

/-- After the first occurrence stands what stands after it. -/
theorem after_append_cons (h : c ∉ s) (t : List Char) : after c (s ++ c :: t) = t := by
  rw [after, List.dropWhile_append_of_pos fun d hd => bne_of_mem_of_not_mem h hd]
  simp

/-- A text without the character only makes the part after its last occurrence longer. -/
theorem afterLast_append (h : c ∉ t) : afterLast c (s ++ t) = afterLast c s ++ t := by
  have hall : ∀ d ∈ t.reverse, (d != c) = true :=
    fun d hd => bne_of_mem_of_not_mem h (List.mem_reverse.mp hd)
  rw [afterLast, afterLast, List.reverse_append, List.takeWhile_append_of_pos hall,
    List.reverse_append,
    List.reverse_reverse]

/-- Without the character all of the text comes after it. -/
theorem afterLast_of_not_mem (h : c ∉ s) : afterLast c s = s := afterLast_append (s := []) h

/-- After the last occurrence stands what stands after it. -/
theorem afterLast_append_cons (h : c ∉ t) : afterLast c (s ++ c :: t) = t := by
  have hends : afterLast c (s ++ [c]) = [] := by simp [afterLast]
  rw [List.append_cons, afterLast_append h, hends, List.nil_append]

/-- There the character does not occur again. -/
theorem not_mem_afterLast : c ∉ afterLast c s := by
  intro h
  have hne := List.all_takeWhile (p := (· != c)) (l := s.reverse)
  rw [List.all_eq_true] at hne
  exact bne_iff_ne.mp (hne c (List.mem_reverse.mp h)) rfl

/-- A text ends with what follows the last occurrence of a character. -/
theorem exists_append_afterLast (c : Char) (s : List Char) :
    ∃ front, s = front ++ afterLast c s := by
  refine ⟨(s.reverse.dropWhile (· != c)).reverse, ?_⟩
  rw [afterLast, ← List.reverse_append, List.takeWhile_append_dropWhile, List.reverse_reverse]

/-- A text in which a character occurs is cut at its last occurrence. -/
theorem exists_cut (h : c ∈ s) : ∃ front last, s = front ++ c :: last ∧ c ∉ last := by
  obtain ⟨before, after, hs, hnot⟩ := List.eq_append_cons_of_mem (List.mem_reverse.mpr h)
  refine ⟨after.reverse, before.reverse, ?_, fun hmem => hnot (List.mem_reverse.mp hmem)⟩
  rw [← List.reverse_reverse s, hs]
  simp

end Slipway.Text
