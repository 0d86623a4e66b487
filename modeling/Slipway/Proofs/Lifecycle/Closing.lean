import Slipway.Proofs.Lifecycle.Course

/-!
# `Slipway.Proofs.Lifecycle.Closing`: how a lifecycle ends

Once a container has been brought up, or could not be, a lifecycle only closes: it enters the last
phase, logs, and removes the container if it has to. `Stage.Closes` states what that adds to a
stage. No time goes by, and of events there is the removal of one container, once, or none.

`run_of_ok`, `run_of_failure` and `run_of_other` give the result and the closing for the three ways
in which bringing up ends; `run_of_error` holds of the last two. -/

set_option autoImplicit false

namespace Slipway

open Slipway.World (Act Note Stage Trace)

/-- Whether a note is of the end of a lifecycle. The id is that of its container, if there is one.
-/
def World.Note.IsClosing (id : Option String) : World.Note → Prop
  | .event i .remove => some i = id ∧ i ≠ ""
  | .line _ _ => True
  | _ => False

/-- Closing notes are not about work. -/
theorem World.Note.IsClosing.not_isWork {id : Option String} {n : World.Note} (h : n.IsClosing id) :
    ¬ n.IsWork := by
  unfold IsClosing at h
  unfold IsWork
  split at h <;> simp_all

/-- A lifecycle that removes nothing closes like any other. -/
theorem World.Note.IsClosing.of_none {n : World.Note} (h : n.IsClosing none) (id : Option String) :
    n.IsClosing id := by
  unfold IsClosing at h ⊢
  split at h <;> simp_all

/-! ### Removals in a trace -/

namespace World.Trace

/-- Whether a container was removed, as far as a trace tells. -/
def Removes (id : String) (t : Trace) : Prop := ∃ x ∈ t, x.note = .event id .remove

/-- The events of two traces are those of the one and those of the other. -/
theorem events_append (t more : Trace) (id : String) :
    events (t ++ more) id = events t id ++ events more id :=
  List.filterMap_append

/-- A removal is one of the events of its container. -/
theorem removes_of_mem_events {t : Trace} {id : String} {time : Int}
    (h : (time, .remove) ∈ t.events id) : t.Removes id := by
  obtain ⟨x, hx, hevent⟩ := List.mem_filterMap.mp h
  refine ⟨x, hx, ?_⟩
  split at hevent
  · rename_i i ev hnote
    split at hevent
    · rename_i hi
      cases hevent
      rw [hnote, hi]
    · cases hevent
  · cases hevent

end World.Trace

/-- What goes on without noting a removal removes nothing. -/
theorem World.Stage.Onward.not_removes {P : Note → Prop} {phases : List Phase} {s t : Stage}
    (h : s.Onward P phases t) (hP : ∀ i, ¬ P (.event i .remove)) (hs : ∀ i, ¬ s.trace.Removes i)
    (i : String) : ¬ t.trace.Removes i := by
  rintro ⟨x, hx, hnote⟩
  obtain ⟨more, hmore, hnotes⟩ := h.trace
  rw [hmore] at hx
  rcases List.mem_append.mp hx with hx | hx
  · exact hs i ⟨x, hx, hnote⟩
  · exact hP i (hnote ▸ (hnotes x hx).2.2)

/-! ### Stages that close -/

/-- A stage that comes out of another by closing, with the removal of a container if there is one to
remove. An empty id counts as none. -/
structure World.Stage.Closes (ended : Option String) (phases : List Phase) (s t : Stage) :
    Prop where
  onward : s.Onward (Note.IsClosing ended) phases t
  now : t.now = s.now
  events : ∀ id, t.trace.events id = s.trace.events id ++
    if ended = some id ∧ id ≠ "" then [(s.now, .remove)] else []

namespace World.Stage.Closes

variable {ended : Option String} {phases phases' : List Phase} {s t u : Stage}

/-- Nothing at all closes without an end. -/
theorem refl (s : Stage) (h : ∀ id, ended = some id → id = "") : s.Closes ended [] s where
  onward := .refl _ s
  now := rfl
  events id := by
    rw [if_neg fun ⟨hid, hne⟩ => hne (h id hid), List.append_nil]

/-- A line in the log ends nothing. -/
theorem line (s : Stage) (gravity : Gravity) (text : String) :
    s.Closes none [] (s.note (.line gravity text)) where
  onward := .note s trivial
  now := rfl
  events _ := World.Trace.events_append _ _ _

/-- A removal ends its container. -/
theorem removal (s : Stage) {id : String} (hne : id ≠ "") :
    s.Closes (some id) [] (s.note (.event id .remove)) where
  onward := .note s ⟨rfl, hne⟩
  now := rfl
  events i := by
    refine (World.Trace.events_append _ _ _).trans ?_
    by_cases hi : id = i
    · subst hi
      simp [hne, World.Trace.events]
    · simp [hi, World.Trace.events]

/-- What is logged before and after a removal does not count. -/
theorem trans (h : s.Closes none phases t) (h' : t.Closes ended phases' u) :
    s.Closes ended (phases ++ phases') u where
  onward := (h.onward.mono fun _ hn => hn.of_none ended).trans h'.onward
  now := h'.now.trans h.now
  events id := by
    rw [h'.events, h.events, h.now]
    simp

/-- What ends nothing may follow an end. -/
theorem trans_none (h : s.Closes ended phases t) (h' : t.Closes none phases' u) :
    s.Closes ended (phases ++ phases') u where
  onward := h.onward.trans (h'.onward.mono fun _ hn => hn.of_none ended)
  now := h'.now.trans h.now
  events id := by
    rw [h'.events, h.events]
    simp

/-- Of the container that is ended there is one more event, its removal. -/
theorem events_ended {id : String} (h : s.Closes (some id) phases t) (hne : id ≠ "") :
    t.trace.events id = s.trace.events id ++ [(s.now, .remove)] := by
  rw [h.events, if_pos ⟨rfl, hne⟩]

/-- The container that ends is removed. -/
theorem removes {id : String} (h : s.Closes (some id) phases t) (hne : id ≠ "") :
    t.trace.Removes id := by
  have hlast : (s.now, .remove) ∈ t.trace.events id := by
    rw [h.events_ended hne]
    exact List.mem_append_right _ (List.mem_singleton_self _)
  exact World.Trace.removes_of_mem_events hlast

end World.Stage.Closes

/-- Whether the removal of a container is interrupted. -/
def World.Box.Interrupts (b : World.Box) (e : Fault) : Prop :=
  b.removeFault = some e ∧ e.isInterrupt = true

namespace Lifecycle

/-- An attempt gives the result of its act. -/
theorem attempt_eq {α : Type} {x : Act α} {r : Except Fault α} {s u : Stage} (h : x s = (r, u)) :
    Act.attempt x s = (.ok r, u) := by
  rw [Act.attempt, h]

/-! ### Removals -/

/-- A container is discarded by one removal. What comes of that is only logged, unless it is an
interrupt. -/
theorem discard_eq (id : String) (s : Stage) :
    discard id s =
      let t := s.note (.event id .remove)
      match s.box.removeFault with
      | none => (.ok (), t)
      | some e =>
        if e.isInterrupt then (.error e, t)
        else (.ok (), t.note (.line .warning
          ("Error during cleanup of " ++ shortId id ++ ": " ++ e.message))) := by
  have hremove := Act.remove_eq id s
  unfold discard
  cases hf : s.box.removeFault with
  | none =>
    rw [hf] at hremove
    exact Act.bind_of_ok (attempt_eq hremove)
  | some e =>
    rw [hf] at hremove
    refine (Act.bind_of_ok (attempt_eq hremove)).trans ?_
    simp only
    -- A fault of the removal is logged, except for an interrupt, which is passed on.
    split <;> rfl

/-- Discarding a container closes, whatever comes of it. -/
theorem discard_closes {id : String} (hne : id ≠ "") (s : Stage) :
    ∃ r t, discard id s = (r, t) ∧ s.Closes (some id) [] t ∧
      ∀ e, r = .error e → s.box.Interrupts e := by
  have hremoval := Stage.Closes.removal s hne
  rw [discard_eq]
  simp only
  -- The removal succeeds, is interrupted, or fails and is told of in the log.
  split
  · exact ⟨_, _, rfl, hremoval, nofun⟩
  · rename_i e hf
    split
    · rename_i hinterrupt
      refine ⟨_, _, rfl, hremoval, fun e' he => ?_⟩
      cases he
      exact ⟨hf, hinterrupt⟩
    · exact ⟨_, _, rfl, hremoval.trans_none (.line _ _ _), nofun⟩

/-- What is left when the container of a stage was discarded, if that was asked for. A stage without
a container has none to discard, and an empty id counts as none. -/
theorem discardIf_closes (asked : Bool) (s : Stage) :
    ∃ r t, (if asked then discardCreated else pure () : Act Unit) s = (r, t) ∧
      s.Closes (if asked then s.id else none) [] t ∧
      ∀ e, r = .error e → asked = true ∧ s.box.Interrupts e := by
  cases asked with
  | false => exact ⟨.ok (), s, rfl, .refl s nofun, nofun⟩
  | true =>
    show ∃ r t, discardCreated s = (r, t) ∧ s.Closes s.id [] t ∧
      ∀ e, r = .error e → true = true ∧ s.box.Interrupts e
    have hlook : Act.stage s = (.ok s, s) := rfl
    rw [discardCreated, Act.bind_of_ok hlook]
    -- Without an identifier, or with an empty one, there is nothing to remove.
    cases hid : s.id with
    | none => exact ⟨.ok (), s, rfl, .refl s nofun, nofun⟩
    | some id =>
      by_cases hne : id = ""
      · simp only [if_pos hne]
        exact ⟨.ok (), s, rfl, .refl s (by simp [hne]), nofun⟩
      · simp only [if_neg hne]
        obtain ⟨r, t, hdiscard, hcloses, hinterrupt⟩ := discard_closes hne s
        exact ⟨r, t, hdiscard, hcloses, fun e he => ⟨trivial, hinterrupt e he⟩⟩

/-! ### The three ways -/

section
variable {settings : Settings} {spec : Spec} {timeout : Option Binary64} {ordinal : Nat}
variable {s u : Stage}

/-- What a lifecycle does when bringing up has ended. -/
def close (settings : Settings) (spec : Spec) : Except Fault Container → Act Outcome
  | .ok container => do
    enter spec .ready
    let s ← Act.stage
    Act.give ⟨true, s.id, some container, none, s.history⟩
  | .error (.failure f) => do
    enter spec .failed
    Act.line .error (spec.imageRef ++ " failed: " ++ f.message)
    if settings.removeOnFailure then discardCreated
    let s ← Act.stage
    Act.give ⟨false, s.id, none, some f, s.history⟩
  | .error e => do
    discardCreated
    Act.fail e

/-- A lifecycle closes on the stage on which bringing up has ended. -/
theorem run_eq_close {r : Except Fault Container}
    (h : bringUp settings spec timeout ordinal s = (r, u)) :
    run settings spec timeout ordinal s = close settings spec r u :=
  Act.bind_of_ok (attempt_eq h)

/-- Entering a phase ends nothing. -/
theorem enter_closes (spec : Spec) (p : Phase) (s : Stage) :
    ∃ t, enter spec p s = (.ok (), t) ∧ t.box = s.box ∧ s.Closes none [p] t := by
  obtain ⟨t, henter, hbox, hnow, honward⟩ := enter_eq spec p s
  refine ⟨t, henter, hbox, honward _ fun _ => trivial, hnow, fun id => ?_⟩
  -- The only note is a line of the log.
  cases henter
  exact World.Trace.events_append _ _ _

/-- A container that has been brought up is the outcome. -/
theorem run_of_ok {c : Container} (h : bringUp settings spec timeout ordinal s = (.ok c, u)) :
    ∃ t, run settings spec timeout ordinal s =
        (.ok ⟨true, u.id, some c, none, u.history ++ [.ready]⟩, t) ∧ u.Closes none [.ready] t := by
  obtain ⟨t, henter, -, hready⟩ := enter_closes spec .ready u
  refine ⟨t, ?_, hready⟩
  rw [run_eq_close h]
  refine (Act.bind_of_ok henter).trans ?_
  rw [← hready.onward.id, ← hready.onward.history]
  rfl

/-- A failure is the outcome, unless an interrupt comes while the container is removed. -/
theorem run_of_failure {f : Failure}
    (h : bringUp settings spec timeout ordinal s = (.error (.failure f), u)) :
    ∃ r t, run settings spec timeout ordinal s = (r, t) ∧
      u.Closes (if settings.removeOnFailure then u.id else none) [.failed] t ∧
      (∀ o, r = .ok o → o = ⟨false, u.id, none, some f, u.history ++ [.failed]⟩) ∧
      ∀ e, r = .error e → settings.removeOnFailure = true ∧ u.box.Interrupts e := by
  obtain ⟨w, henter, hbox, hfailed⟩ := enter_closes spec .failed u
  -- The stage on which the container is removed, if it is.
  let text := spec.imageRef ++ " failed: " ++ f.message
  let v := w.note (.line .error text)
  have hline : Act.line .error text w = (.ok (), v) := rfl
  have hv : u.Closes none [.failed] v := hfailed.trans (.line w .error text)
  have hrun : run settings spec timeout ordinal s =
      ((if settings.removeOnFailure then discardCreated else pure ()) >>= fun _ =>
        Act.stage >>= fun s => Act.give ⟨false, s.id, none, some f, s.history⟩ : Act Outcome)
          v := by
    rw [run_eq_close h, close]
    cases settings.removeOnFailure <;> exact (Act.bind_of_ok henter).trans (Act.bind_of_ok hline)
  obtain ⟨r, t, hdiscard, hcloses, hinterrupt⟩ := discardIf_closes settings.removeOnFailure v
  rw [hv.onward.id] at hcloses
  have ht : u.Closes _ [.failed] t := hv.trans hcloses
  rw [hrun]
  cases r with
  | ok _ =>
    -- The removal entered no phase, so the history is that of before.
    refine ⟨_, t, Act.bind_of_ok hdiscard, ht, fun o ho => ?_, nofun⟩
    cases ho
    rw [ht.onward.id, ht.onward.history]
  | error e =>
    refine ⟨.error e, t, Act.bind_of_error hdiscard, ht, fun _ ho => (nomatch ho), fun e' he => ?_⟩
    cases he
    rw [← hbox]
    exact hinterrupt e rfl

/-- Anything else that went wrong is passed on after the container was removed, unless an interrupt
comes meanwhile. -/
theorem run_of_other {e : Fault} (he : ∀ f, e ≠ .failure f)
    (h : bringUp settings spec timeout ordinal s = (.error e, u)) :
    ∃ e' t, run settings spec timeout ordinal s = (.error e', t) ∧ u.Closes u.id [] t ∧
      (e' = e ∨ u.box.Interrupts e') := by
  obtain ⟨r, t, hdiscard, hcloses, hinterrupt⟩ := discardIf_closes true u
  have hrun : run settings spec timeout ordinal s = (discardCreated >>= fun _ => Act.fail e) u := by
    rw [run_eq_close h]
    cases e with
    | failure f => exact absurd rfl (he f)
    | _ => rfl
  rw [hrun]
  -- An interrupt of the removal takes the place of the fault.
  cases r with
  | ok _ => exact ⟨e, t, Act.bind_of_ok hdiscard, hcloses, .inl rfl⟩
  | error e' => exact ⟨e', t, Act.bind_of_error hdiscard, hcloses, .inr (hinterrupt e' rfl).2⟩

/-- A lifecycle that could not bring up its container has a failure as its outcome, if it has one,
and removes the container if it is set to. -/
theorem run_of_error {e : Fault} (h : bringUp settings spec timeout ordinal s = (.error e, u)) :
    ∃ r t phases, run settings spec timeout ordinal s = (r, t) ∧
      u.Onward (Note.IsClosing u.id) phases t ∧
      (∀ o, r = .ok o → ∃ f, e = .failure f ∧
        o = ⟨false, u.id, none, some f, u.history ++ [.failed]⟩) ∧
      (settings.removeOnFailure = true → ∀ id, u.id = some id → id ≠ "" → t.trace.Removes id) := by
  by_cases he : ∃ f, e = .failure f
  · obtain ⟨f, rfl⟩ := he
    obtain ⟨r, t, hrun, hcloses, ho, -⟩ := run_of_failure h
    -- After a failure the settings decide whether the container is removed.
    cases hset : settings.removeOnFailure with
    | false =>
      rw [hset] at hcloses
      exact ⟨r, t, _, hrun, hcloses.onward.mono fun _ hn => hn.of_none u.id,
        fun o hr => ⟨f, rfl, ho o hr⟩, nofun⟩
    | true =>
      rw [hset] at hcloses
      refine ⟨r, t, _, hrun, hcloses.onward, fun o hr => ⟨f, rfl, ho o hr⟩, fun _ id hid => ?_⟩
      simp only [if_true, hid] at hcloses
      exact hcloses.removes
  · -- Any other fault removes it always.
    obtain ⟨e', t, hrun, hcloses, -⟩ := run_of_other (fun f hf => he ⟨f, hf⟩) h
    refine ⟨.error e', t, _, hrun, hcloses.onward, fun _ ho => (nomatch ho), fun _ id hid => ?_⟩
    rw [hid] at hcloses
    exact hcloses.removes

/-- After bringing up, a lifecycle only closes. -/
theorem run_closes (settings : Settings) (spec : Spec) (timeout : Option Binary64) (ordinal : Nat)
    (s : Stage) :
    ∃ ended phases, (bringUp settings spec timeout ordinal s).2.Closes ended phases
      (run settings spec timeout ordinal s).2 := by
  cases h : bringUp settings spec timeout ordinal s with
  | mk r u =>
    -- Ready, failed, or ended by another fault: each has its own way to close.
    cases r with
    | ok c =>
      obtain ⟨t, hrun, hcloses⟩ := run_of_ok h
      rw [hrun]
      exact ⟨_, _, hcloses⟩
    | error e =>
      by_cases he : ∃ f, e = .failure f
      · obtain ⟨f, rfl⟩ := he
        obtain ⟨r, t, hrun, hcloses, -⟩ := run_of_failure h
        rw [hrun]
        exact ⟨_, _, hcloses⟩
      · obtain ⟨e', t, hrun, hcloses, -⟩ := run_of_other (fun f hf => he ⟨f, hf⟩) h
        rw [hrun]
        exact ⟨_, _, hcloses⟩

end

end Lifecycle
end Slipway
