import Mathlib.Data.List.Basic
import Slipway.Proofs.Text.Cut
import Slipway.Text.Internet

/-!
# `Slipway.Proofs.Text.Internet`: of what internet addresses are written

A version 6 address without a zone is written with hexadecimal digits, colons and dots
(`mem_of_isLong`), and there is a colon in it (`colon_mem_of_isLong`), which a version 4 address has
not (`colon_not_mem_of_isShort`). So a text is never both.

An address is read in pieces between separators. Whatever is not a separator is in one of the pieces
(`exists_piece`), so what is known of the pieces is known of the address.
-/

set_option autoImplicit false

namespace Slipway.Text

variable {c sep : Char} {s : List Char}

/-! ### Pieces -/

/-- There is always a piece, and it may be empty. -/
theorem pieces_ne_nil (sep : Char) (s : List Char) : pieces sep s ≠ [] := by
  cases s with
  | nil => simp [pieces]
  | cons x rest =>
    rw [pieces]
    split
    · simp
    · split <;> simp

/-- Every character but the separators stands in a piece. -/
theorem exists_piece (hc : c ∈ s) (h : c ≠ sep) : ∃ p ∈ pieces sep s, c ∈ p := by
  induction s with
  | nil => cases hc
  | cons x rest ih =>
    rw [pieces]
    split
    case isTrue hx =>
      have hrest : c ∈ rest := (List.mem_cons.mp hc).resolve_left fun heq => h (heq.trans hx)
      obtain ⟨p, hp, hcp⟩ := ih hrest
      exact ⟨p, List.mem_cons_of_mem _ hp, hcp⟩
    case isFalse hx =>
      -- The character goes in front of the first of the other pieces.
      cases hpieces : pieces sep rest with
      | nil => exact absurd hpieces (pieces_ne_nil sep rest)
      | cons first others =>
        rcases List.mem_cons.mp hc with rfl | hrest
        · exact ⟨c :: first, List.mem_cons_self, List.mem_cons_self⟩
        · obtain ⟨p, hp, hcp⟩ := ih hrest
          rw [hpieces] at hp
          rcases List.mem_cons.mp hp with rfl | hp
          · exact ⟨x :: p, List.mem_cons_self, List.mem_cons_of_mem x hcp⟩
          · exact ⟨p, List.mem_cons_of_mem _ hp, hcp⟩

/-- Without a separator there is one piece. -/
theorem pieces_of_not_mem (h : sep ∉ s) : pieces sep s = [s] := by
  induction s with
  | nil => rfl
  | cons x rest ih =>
    have hx : x ≠ sep := fun heq => h (by rw [heq]; exact List.mem_cons_self)
    rw [pieces, if_neg hx, ih fun hmem => h (List.mem_cons_of_mem x hmem)]

namespace Internet

open Digit (asciiValue? hexValue?)

/-- What is read character by character is read at every character. -/
theorem isSome_of_mapM {α : Type} {f : Char → Option α} {values : List α}
    (h : s.mapM f = some values) :
    ∀ c ∈ s, (f c).isSome = true := by
  -- By the characters: all of them must have a value.
  induction s generalizing values with
  | nil => simp
  | cons x rest ih =>
    rw [List.mapM_cons] at h
    obtain ⟨v, hv, h⟩ := Option.bind_eq_some_iff.mp h
    obtain ⟨vs, hvs, -⟩ := Option.bind_eq_some_iff.mp h
    intro c hc
    rcases List.mem_cons.mp hc with rfl | hc
    · rw [hv]
      rfl
    · exact ih hvs c hc

/-! ### Version 4 -/

/-- What a version 4 address is written with. -/
theorem mem_of_isShort (h : isShort s = true) :
    ∀ c ∈ s, (asciiValue? c).isSome = true ∨ c = '.' := by
  intro c hc
  by_cases hdot : c = '.'
  · exact .inr hdot
  obtain ⟨p, hp, hcp⟩ := exists_piece hc hdot
  simp only [isShort, Bool.and_eq_true, List.all_eq_true] at h
  have hoctet : isOctet p = true := h.2 p hp
  unfold isOctet at hoctet
  split at hoctet
  · cases hoctet
  · rename_i values hvalues
    exact .inl (isSome_of_mapM hvalues c hcp)

/-- An address of the short kind has no colon. -/
theorem colon_not_mem_of_isShort (h : isShort s = true) : ':' ∉ s := by
  intro hmem
  rcases mem_of_isShort h ':' hmem with hdigit | hdot
  · exact absurd hdigit (by decide)
  · exact absurd hdot (by decide)

/-! ### Version 6 -/

/-- A group at an end may be left out as well. -/
theorem isGroup_of_front {gs : List (List Char)}
    (h : (if gs.head? = some [] then gs.drop 1 else gs).all isGroup = true) :
    ∀ g ∈ gs, g = [] ∨ isGroup g = true := by
  intro g hg
  rw [List.all_eq_true] at h
  -- The first group may be empty, and then it is passed over.
  split at h
  · cases gs with
    | nil => cases hg
    | cons first rest =>
      rcases List.mem_cons.mp hg with rfl | hg
      · exact .inl (Option.some.inj ‹_›)
      · exact .inr (h g hg)
  · exact .inr (h g hg)

/-- The last group may be empty too, and all others are groups. -/
theorem isGroup_of_back {gs : List (List Char)}
    (h : (if gs.getLast? = some [] then gs.dropLast else gs).all isGroup = true) :
    ∀ g ∈ gs, g = [] ∨ isGroup g = true := by
  intro g hg
  rw [List.all_eq_true] at h
  split at h
  · rename_i hlast
    rw [← List.dropLast_append_getLast? [] hlast] at hg
    rcases List.mem_append.mp hg with hg | hg
    · exact .inr (h g hg)
    · exact .inl (List.mem_singleton.mp hg)
  · exact .inr (h g hg)

/-- In an address that is complete, each group is one or is left out. -/
theorem isGroup_of_areComplete {gs : List (List Char)} (h : areComplete gs = true) :
    ∀ g ∈ gs, g = [] ∨ isGroup g = true := by
  unfold areComplete at h
  simp only at h
  split at h
  · rw [Bool.and_eq_true, List.all_eq_true] at h
    intro g hg
    exact .inr (h.2 g hg)
  · rename_i i hi
    -- The groups are those before the one left out, that one, and those after it.
    obtain ⟨hlt, hempty, -⟩ := List.findIdx?_eq_some_iff_getElem.mp hi
    simp only [List.length_dropLast, List.length_drop] at hlt
    have hgap : gs[i + 1] = [] := by
      rw [List.isEmpty_iff, List.getElem_dropLast, List.getElem_drop] at hempty
      rw [← hempty]
      congr 1
      omega
    have hsplit : gs = gs.take (i + 1) ++ (gs[i + 1] :: gs.drop (i + 2)) := by
      rw [← List.drop_eq_getElem_cons, List.take_append_drop]
    simp only [Bool.and_eq_true] at h
    obtain ⟨⟨⟨⟨⟨-, hfront⟩, hback⟩, -⟩, -⟩, -⟩ := h
    intro g hg
    rw [hsplit, hgap] at hg
    rcases List.mem_append.mp hg with hg | hg
    · exact isGroup_of_front hfront g hg
    · rcases List.mem_cons.mp hg with rfl | hg
      · exact .inl rfl
      · exact isGroup_of_back hback g hg

/-- A version 6 address without a zone is in pieces of which there are three at least. Each is a
group, or empty, or the last of them and a version 4 address. -/
theorem pieces_of_isLong (h : isLong s = true) (hzone : '%' ∉ s) :
    3 ≤ (pieces ':' s).length ∧ ∀ p ∈ pieces ':' s, p = [] ∨ isGroup p = true ∨
    isShort p = true := by
  have hall : before '%' s = s := before_of_not_mem hzone
  have hzoned : s.contains '%' = false := by simpa using hzone
  simp only [isLong, hzoned, hall, Bool.false_and, Bool.false_eq_true, if_false] at h
  split at h
  · rename_i gs hgs
    unfold groups at hgs
    simp only at hgs
    split at hgs
    · rename_i last hlast
      split at hgs
      · cases hgs
      · rename_i hlength
        refine ⟨Nat.not_lt.mp hlength, ?_⟩
        intro p hp
        -- A dot in the last piece makes it a version 4 address, for which two groups stand in.
        split at hgs
        · split at hgs
          · rename_i hshort
            cases hgs
            have hcomplete := isGroup_of_areComplete h
            rw [← List.dropLast_append_getLast? last hlast] at hp
            rcases List.mem_append.mp hp with hp | hp
            · exact (hcomplete p (List.mem_append_left _ hp)).imp id .inl
            · rw [List.mem_singleton.mp hp]
              exact .inr (.inr hshort)
          · cases hgs
        · cases hgs
          exact (isGroup_of_areComplete h p hp).imp id .inl
    · cases hgs
  · cases h

/-- An address of the long kind has a colon. -/
theorem colon_mem_of_isLong (h : isLong s = true) (hzone : '%' ∉ s) : ':' ∈ s := by
  by_contra hnone
  have hlength := (pieces_of_isLong h hzone).1
  rw [pieces_of_not_mem hnone] at hlength
  exact absurd hlength (by simp)

/-- A decimal digit is a hexadecimal one. -/
theorem hexValue?_of_asciiValue? (h : (asciiValue? c).isSome = true) :
    (hexValue? c).isSome = true := by
  unfold asciiValue? at h
  split at h
  · unfold hexValue?
    rw [if_pos ‹_›]
    rfl
  · cases h

/-- What a version 6 address is written with. -/
theorem mem_of_isLong (h : isLong s = true) (hzone : '%' ∉ s) :
    ∀ c ∈ s, (hexValue? c).isSome = true ∨ c = ':' ∨ c = '.' := by
  intro c hc
  by_cases hcolon : c = ':'
  · exact .inr (.inl hcolon)
  obtain ⟨p, hp, hcp⟩ := exists_piece hc hcolon
  rcases (pieces_of_isLong h hzone).2 p hp with rfl | hgroup | hshort
  · cases hcp
  · simp only [isGroup, Bool.and_eq_true, List.all_eq_true] at hgroup
    exact .inl (hgroup.2 c hcp)
  · exact (mem_of_isShort hshort c hcp).imp hexValue?_of_asciiValue? .inr

/-- No address is of both kinds. -/
theorem isShort_of_isLong (h : isLong s = true) (hzone : '%' ∉ s) : isShort s = false := by
  rw [← Bool.not_eq_true]
  intro hshort
  exact colon_not_mem_of_isShort hshort (colon_mem_of_isLong h hzone)

end Internet
end Slipway.Text
