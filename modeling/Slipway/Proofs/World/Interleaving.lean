import Slipway.World.Trace

/-!
# `Slipway.Proofs.World.Interleaving`: traces side by side

What happens side by side has no order but that of each part. `Trace.Interleaves` says of a trace
that it is made of parts, each in its order, whichever part comes next at any time.

What a trace tells of one container is told by the notes that have it as their subject
(`Note.subject?`). If only one part has such notes, an interleaving tells of the container what that
part does (`Trace.Interleaves.tellsAlike`). -/

set_option autoImplicit false

namespace Slipway.World

/-- The container that a note is of, if it is of one. -/
def Note.subject? : Note → Option String
  | .event id _ => some id
  | .stored id _ _ => some id
  | .probe id _ => some id
  | .request _ => none
  | .line _ _ => none
  | .caution _ => none

namespace Trace

variable {id : String} {t t' : Trace} {parts : List Trace}

/-! ### One container -/

/-- The notes of one container. -/
def of (id : String) (t : Trace) : Trace := t.filter fun e => e.note.subject? == some id

/-- An entry belongs to its subject. -/
theorem of_cons (id : String) (e : Entry) (t : Trace) :
    of id (e :: t) = if e.note.subject? = some id then e :: of id t else of id t := by
  simp [of, List.filter_cons]

/-- What is taken from the notes of one container may be taken from all. -/
theorem filterMap_of {α : Type} {f : Entry → Option α}
    (hf : ∀ e, e.note.subject? ≠ some id → f e = none) (t : Trace) :
    (of id t).filterMap f = t.filterMap f := by
  induction t with
  | nil => rfl
  | cons e rest ih =>
    rw [of_cons]
    split
    · rw [List.filterMap_cons, List.filterMap_cons, ih]
    · rename_i hother
      rw [List.filterMap_cons, hf e hother, ih]

/-- The events of a container are among its own entries. -/
theorem events_of (id : String) (t : Trace) : (of id t).events id = t.events id := by
  refine filterMap_of (fun e he => ?_) t
  cases hn : e.note <;> simp_all [Note.subject?]

/-- So are its probes. -/
theorem probes_of (id : String) (t : Trace) : (of id t).probes id = t.probes id := by
  refine filterMap_of (fun e he => ?_) t
  cases hn : e.note <;> simp_all [Note.subject?]

/-- A note of another container leaves the files as they are. -/
theorem files_of (id : String) (t : Trace) : (of id t).files id = t.files id := by
  unfold files of
  rw [List.foldl_filter]
  congr 1
  funext fs e
  cases hn : e.note <;> simp [Note.subject?]
  rename_i i path content
  intro hi hid
  exact absurd hid hi

/-- Whether two traces tell the same of a container: what was done to it, what was asked of it, and
which files were written into it. -/
structure TellsAlike (id : String) (t t' : Trace) : Prop where
  events : t.events id = t'.events id
  probes : t.probes id = t'.probes id
  files : t.files id = t'.files id

/-- Traces with the same entries of a container tell the same of it. -/
theorem tellsAlike_of_eq (h : of id t = of id t') : TellsAlike id t t' where
  events := by rw [← events_of, h, events_of]
  probes := by rw [← probes_of, h, probes_of]
  files := by rw [← files_of, h, files_of]

/-- A trace about others has none. -/
theorem of_eq_nil (h : ∀ e ∈ t, e.note.subject? ≠ some id) : of id t = [] :=
  List.filter_eq_nil_iff.mpr fun e he => by simpa using h e he

/-! ### Interleavings -/

/-- A trace that is made of parts, taking the next note from any of them until none is left. -/
inductive Interleaves : List Trace → Trace → Prop
  | done {parts : List Trace} (h : ∀ p ∈ parts, p = []) : Interleaves parts []
  | next {parts : List Trace} {i : Nat} {e : Entry} {rest t : Trace}
    (hi : parts[i]? = some (e :: rest))
      (h : Interleaves (parts.set i rest) t) : Interleaves parts (e :: t)

/-- The notes of a container that only one part has are in an interleaving as they are in that part.
-/
theorem Interleaves.of_eq (h : Interleaves parts t) {i : Nat} {p : Trace} (hp : parts[i]? = some p)
    (hothers : ∀ j q, j ≠ i → parts[j]? = some q → of id q = []) : of id t = of id p := by
  induction h generalizing p with
  | done hnil => rw [hnil p (List.mem_of_getElem? hp)]
  | @next parts k e rest t hk _ ih =>
    by_cases hki : k = i
    · -- The next note is one of the part itself.
      subst hki
      rw [hk] at hp
      cases hp
      have hlt : k < parts.length := (List.getElem?_eq_some_iff.mp hk).1
      have hrest := ih (p := rest) (by rw [List.getElem?_set_self hlt]) fun j q hj hq =>
        hothers j q hj (by rwa [List.getElem?_set_ne (Ne.symm hj)] at hq)
      rw [of_cons, of_cons, hrest]
    · -- It is one of another part, and so not of the container.
      have hnone := hothers k _ hki hk
      rw [of_cons] at hnone
      split at hnone
      · cases hnone
      · rename_i hother
        rw [of_cons, if_neg hother]
        refine ih (by rwa [List.getElem?_set_ne hki]) fun j q hj hq => ?_
        by_cases hkj : k = j
        · subst hkj
          have hlt : k < parts.length := (List.getElem?_eq_some_iff.mp hk).1
          rw [List.getElem?_set_self hlt] at hq
          cases hq
          exact hnone
        · exact hothers j q hj (by rwa [List.getElem?_set_ne hkj] at hq)

/-- Of a container only its own part tells, however the parts are interleaved. -/
theorem Interleaves.tellsAlike (h : Interleaves parts t) {i : Nat} {p : Trace}
    (hp : parts[i]? = some p) (hothers : ∀ j q, j ≠ i → parts[j]? = some q → of id q = []) :
    TellsAlike id t p :=
  tellsAlike_of_eq (h.of_eq hp hothers)

/-- A part that has nothing left does not count. -/
theorem Interleaves.nil_cons (h : Interleaves parts t) : Interleaves ([] :: parts) t := by
  induction h with
  | done hnil => exact .done (by simpa using hnil)
  | @next parts i e rest t hi _ ih => exact .next (i := i + 1) hi ih

/-- A part may come before all others. -/
theorem Interleaves.append_cons (h : Interleaves parts t) (p : Trace) :
    Interleaves (p :: parts) (p ++ t) := by
  induction p with
  | nil => exact h.nil_cons
  | cons e rest ih => exact .next (i := 0) rfl ih

/-- Parts one after the other are an interleaving of them. -/
theorem interleaves_flatten (parts : List Trace) : Interleaves parts parts.flatten := by
  induction parts with
  | nil => exact .done (by simp)
  | cons p rest ih => exact ih.append_cons p

end Trace
end Slipway.World
