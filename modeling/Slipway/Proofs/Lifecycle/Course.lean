import Slipway.Proofs.Lifecycle.Legs

/-!
# `Slipway.Proofs.Lifecycle.Course`: how far a lifecycle gets

`Rise` describes the stage that a container has been brought to: the phases entered, what was noted,
and that nothing was done with the container before it was looked at. `Watched` adds that it was
looked at. Both are kept by whatever a leg does, so that each leg takes one step.

`bringUp_of_failsIn` states where bringing up ends if a leg fails, and `exists_failsIn` that a leg
does if it ends with a fault. `bringUp_watched` is for the way that ends well. -/

set_option autoImplicit false

namespace Slipway

open Slipway.World (Act Note Stage Trace)

/-- Whether a note is of work with a started container: a command or a copy in it, or a question of
a wait. -/
def World.Note.IsWork : World.Note → Prop
  | .event _ (.exec _ _ _) => True
  | .event _ (.copy _ _) => True
  | .probe _ _ => True
  | .request _ => True
  | _ => False

/-- Whether a note is of a container that is brought up. -/
def World.Note.IsRise (id : String) (n : World.Note) : Prop := n.IsOpening id ∨ n.IsDeed id

/-- Opening notes are not about work. -/
theorem World.Note.IsOpening.not_isWork {id : String} {n : World.Note} (h : n.IsOpening id) :
    ¬ n.IsWork := by
  unfold IsOpening at h
  unfold IsWork
  split at h <;> simp_all

/-- Whether a container was created, as far as a trace tells. -/
def World.Trace.Creates (id : String) (t : Trace) : Prop :=
  ∃ x ∈ t, ∃ image, x.note = .event id (.create image)

/-- In a trace, all work comes after its container was looked at. -/
def World.Trace.InspectsFirst (id : String) (t : Trace) : Prop :=
  ∀ before x after, t = before ++ x :: after → x.note.IsWork →
    ∃ y ∈ before, y.note = .event id .inspect ∧ y.time ≤ x.time

namespace World.Trace.InspectsFirst

variable {id : String} {t more : Trace}

/-- Nothing happens before the inspection of an empty trace. -/
theorem nil (id : String) : InspectsFirst id [] := by
  intro before x after h
  simp at h

/-- Later notes keep the order if each is no work or comes after a look at the container. -/
theorem append (h : InspectsFirst id t)
    (hmore : ∀ x ∈ more, x.note.IsWork → ∃ y ∈ t, y.note = .event id .inspect ∧ y.time ≤ x.time) :
    InspectsFirst id (t ++ more) := by
  intro before x after heq hx
  rcases List.append_eq_append_iff.mp heq with ⟨others, hbefore, hrest⟩ | ⟨others, ht, hrest⟩
  · -- The work is among the later notes.
    have hmem : x ∈ more := by simp [hrest]
    obtain ⟨y, hy, hnote, htime⟩ := hmore x hmem hx
    exact ⟨y, by simp [hbefore, hy], hnote, htime⟩
  · cases others with
    | nil =>
      have hmem : x ∈ more := by simp at hrest; simp [← hrest]
      obtain ⟨y, hy, hnote, htime⟩ := hmore x hmem hx
      exact ⟨y, by simpa [ht] using hy, hnote, htime⟩
    | cons z others =>
      -- The work was noted earlier, in its order.
      simp only [List.cons_append, List.cons.injEq] at hrest
      obtain ⟨rfl, -⟩ := hrest
      exact h before x others ht hx

end World.Trace.InspectsFirst

namespace Lifecycle

/-! ### What a container has been brought to -/

/-- A container has been created and brought through phases, and nothing was done with it before it
was looked at. -/
structure Rise (id : String) (phases : List Phase) (s t : Stage) : Prop where
  onward : { s with id := some id }.Onward (Note.IsRise id) phases t
  creates : t.trace.Creates id
  inspectsFirst : t.trace.InspectsFirst id

/-- A container has been brought through phases and was looked at. -/
structure Watched (id : String) (phases : List Phase) (s t : Stage) : Prop
    extends Rise id phases s t where
  inspected : ∃ x ∈ t.trace, x.time ≤ t.now ∧ x.note = .event id .inspect

section
variable {id : String} {phases phases' : List Phase} {s t u : Stage}

/-- A rise goes on with what opens. -/
theorem Rise.opening (h : Rise id phases s t) (h' : t.Onward (Note.IsOpening id) phases' u) :
    Rise id (phases ++ phases') s u := by
  refine ⟨h.onward.trans (h'.mono fun _ hn => .inl hn), ?_, ?_⟩
  · obtain ⟨x, hx, hcreate⟩ := h.creates
    exact ⟨x, h'.mem_trace hx, hcreate⟩
  · obtain ⟨more, hmore, hP⟩ := h'.trace
    rw [hmore]
    exact h.inspectsFirst.append fun x hx hwork => absurd hwork (hP x hx).2.2.not_isWork

/-- Of a container that is watched, deeds may follow. -/
theorem Watched.deed (h : Watched id phases s t) (h' : t.Onward (Note.IsDeed id) phases' u) :
    Watched id (phases ++ phases') s u := by
  obtain ⟨y, hy, hnow, hinspect⟩ := h.inspected
  obtain ⟨x, hx, hcreate⟩ := h.creates
  refine ⟨⟨h.onward.trans (h'.mono fun _ hn => .inr hn), ⟨x, h'.mem_trace hx, hcreate⟩, ?_⟩,
    ⟨y, h'.mem_trace hy, Int.le_trans hnow h'.le_now, hinspect⟩⟩
  obtain ⟨more, hmore, hP⟩ := h'.trace
  rw [hmore]
  exact h.inspectsFirst.append fun z hz _ =>
    ⟨y, hy, hinspect, Int.le_trans hnow (hP z hz).1⟩

end

/-! ### The ways that end well -/

section
variable {settings : Settings} {spec : Spec} {timeout : Option Binary64} {ordinal : Nat}
variable {s t : Stage} {p : Container × Deadline} (hs : s.trace = [])

include hs

/-- The creation rises. -/
theorem created_rise {id : String} (h : created spec ordinal s = (.ok id, t)) :
    Rise id [.created] s t := by
  obtain ⟨-, -, -, honward, hmem⟩ := created_eq_ok h
  refine ⟨honward.mono fun _ hn => .inl hn, ⟨_, hmem, _, rfl⟩, ?_⟩
  obtain ⟨more, hmore, hP⟩ := honward.trace
  have htrace : t.trace = [] ++ more := by rw [hmore, ← hs]
  rw [htrace]
  exact (World.Trace.InspectsFirst.nil id).append fun x hx hwork =>
    absurd hwork (hP x hx).2.2.not_isWork

/-- A container that was started is watched. -/
theorem started_watched (h : started settings spec timeout ordinal s = (.ok p, t)) :
    Watched p.1.id [.created, .started] s t := by
  obtain ⟨u, hcreated, honward, hinspect⟩ := started_eq_ok h
  exact ⟨(created_rise hs hcreated).opening honward, hinspect⟩

/-- So it is after the commands before the evaluation. -/
theorem prepared_watched (h : prepared settings spec timeout ordinal s = (.ok p, t)) :
    Watched p.1.id (Leg.evaluation.course spec) s t := by
  obtain ⟨u, hstarted, honward⟩ := prepared_eq_ok h
  have hw := (started_watched hs hstarted).deed honward
  rwa [← List.append_assoc] at hw

/-- So it is after the evaluation. -/
theorem evaluated_watched (h : evaluated settings spec timeout ordinal s = (.ok p, t)) :
    Watched p.1.id (Leg.evaluation.course spec) s t := by
  obtain ⟨u, hprepared, hawait⟩ := evaluated_eq_ok h
  have honward := Injection.await_goes (targetOf settings p) spec.waitFor p.2 u
  rw [hawait] at honward
  have hw := (prepared_watched hs hprepared).deed (honward.mono fun _ hn => hn.isDeed)
  rwa [List.append_nil] at hw

/-- So it is when it has been brought up. -/
theorem bringUp_watched {c : Container}
    (h : bringUp settings spec timeout ordinal s = (.ok c, t)) :
    Watched c.id (course spec) s t := by
  obtain ⟨p, u, hevaluated, rfl, honward⟩ := bringUp_eq_ok h
  exact (evaluated_watched hs hevaluated).deed honward

end

/-! ### The ways that end with a fault -/

section
variable {settings : Settings} {spec : Spec} {timeout : Option Binary64} {ordinal : Nat}
variable {leg : Leg} {s t : Stage} {e : Fault}

/-- Steps that fail are run in a phase of their own. -/
theorem optional_of_runPhase {phase : Phase} {target : Injection.Target} {sources : List Source}
    (h : (runPhase spec phase target sources t).1 = .error e) :
    optional phase sources = [phase] := by
  cases sources with
  | nil => cases h
  | cons source rest => rfl

/-- A leg that fails ends the way up. If it is the creation nothing has happened, and else a
container has been brought through the phases of that leg. -/
theorem bringUp_of_failsIn (hs : s.trace = []) (h : FailsIn settings spec timeout ordinal leg e s) :
    ∃ t, bringUp settings spec timeout ordinal s = (.error e, t) ∧
      (s.box.createFault = some e ∧ leg = .creation ∧ t = s ∨
        s.box.createFault = none ∧ Rise (Act.idOf s.box spec ordinal) (leg.course spec) s t) := by
  -- In each case the way up to the leg ended well, and tells the phases. The leg itself adds its
  -- own, and all later legs pass the fault on.
  cases leg with
  | creation =>
    have hcreate := Act.create_eq spec ordinal s
    cases hf : s.box.createFault with
    | none =>
      rw [hf] at hcreate
      rw [FailsIn, hcreate] at h
      cases h
    | some f =>
      rw [hf] at hcreate
      rw [FailsIn, hcreate] at h
      cases h
      exact ⟨s, bringUp_of_evaluated (evaluated_of_prepared (prepared_of_started
        (started_of_created (Act.bind_of_error hcreate)))), .inl ⟨rfl, rfl, rfl⟩⟩
  | start =>
    obtain ⟨id, t, hcreated, hstart⟩ := h
    obtain ⟨hnone, rfl, -⟩ := created_eq_ok hcreated
    have honward := start_goes (isOpening_opens spec (Act.idOf s.box spec ordinal)) t
    have hfail : start spec (Act.idOf s.box spec ordinal) t = (.error e, (start spec _ t).2) :=
      Prod.ext hstart rfl
    refine ⟨_, bringUp_of_evaluated (evaluated_of_prepared (prepared_of_started ?_)),
      .inr ⟨hnone, (created_rise hs hcreated).opening honward⟩⟩
    exact (Act.bind_of_ok hcreated).trans (Act.bind_of_error hfail)
  | preReady =>
    obtain ⟨p, t, hstarted, hphase⟩ := h
    obtain ⟨hnone, hid⟩ := id_of_started hstarted
    have honward := runPhase_onward spec .preReadyExec (targetOf settings p) spec.execBeforeReady t
    rw [optional_of_runPhase hphase] at honward
    have hw := (started_watched hs hstarted).deed honward
    rw [hid] at hw
    refine ⟨_, bringUp_of_evaluated (evaluated_of_prepared ?_), .inr ⟨hnone, hw.toRise⟩⟩
    exact (Act.bind_of_ok hstarted).trans (Act.bind_of_error (Prod.ext hphase rfl))
  | evaluation =>
    obtain ⟨p, t, hprepared, hawait⟩ := h
    obtain ⟨hnone, hid⟩ := id_of_prepared hprepared
    have honward := Injection.await_goes (targetOf settings p) spec.waitFor p.2 t
    have hw := (prepared_watched hs hprepared).deed (honward.mono fun _ hn => hn.isDeed)
    rw [List.append_nil, hid] at hw
    refine ⟨_, bringUp_of_evaluated ?_, .inr ⟨hnone, hw.toRise⟩⟩
    exact (Act.bind_of_ok hprepared).trans (Act.bind_of_error (Prod.ext hawait rfl))
  | postStart =>
    obtain ⟨p, t, hevaluated, hphase⟩ := h
    obtain ⟨hnone, hid⟩ := id_of_evaluated hevaluated
    have honward := runPhase_onward spec .postStartExec (targetOf settings p) spec.execAfterStart t
    rw [optional_of_runPhase hphase] at honward
    have hw := (evaluated_watched hs hevaluated).deed honward
    rw [hid] at hw
    refine ⟨_, ?_, .inr ⟨hnone, hw.toRise⟩⟩
    rw [bringUp_eq]
    exact (Act.bind_of_ok hevaluated).trans (Act.bind_of_error (Prod.ext hphase rfl))

/-- If the way up ends with a fault, a leg has failed with it. -/
theorem exists_failsIn (h : bringUp settings spec timeout ordinal s = (.error e, t)) :
    ∃ leg, FailsIn settings spec timeout ordinal leg e s := by
  -- Taken apart from the end: the fault is that of the last leg, or the way up to it had ended with
  -- it already.
  rw [bringUp_eq] at h
  rcases Act.bind_eq_error.mp h with h | ⟨p, u, hevaluated, h⟩
  · rcases Act.bind_eq_error.mp h with h | ⟨p, u, hprepared, h⟩
    · rcases Act.bind_eq_error.mp h with h | ⟨p, u, hstarted, h⟩
      · rcases Act.bind_eq_error.mp h with h | ⟨id, u, hcreated, h⟩
        · have hcreate := Act.eq_error_of_bind h fun _ _ => ⟨_, rfl⟩
          exact ⟨.creation, congrArg Prod.fst hcreate⟩
        · have hstart := Act.eq_error_of_bind h fun _ _ => ⟨_, rfl⟩
          exact ⟨.start, id, u, hcreated, congrArg Prod.fst hstart⟩
      · have hphase := Act.eq_error_of_bind h fun _ _ => ⟨_, rfl⟩
        exact ⟨.preReady, p, u, hstarted, congrArg Prod.fst hphase⟩
    · have hawait := Act.eq_error_of_bind h fun _ _ => ⟨_, rfl⟩
      exact ⟨.evaluation, p, u, hprepared, congrArg Prod.fst hawait⟩
  · have hphase := Act.eq_error_of_bind h fun _ _ => ⟨_, rfl⟩
    exact ⟨.postStart, p, u, hevaluated, congrArg Prod.fst hphase⟩

/-- Bringing up leaves the stage as it was if the container could not be created, and else brings it
through some phases. -/
theorem bringUp_rise (hs : s.trace = []) :
    (∃ e, s.box.createFault = some e ∧ bringUp settings spec timeout ordinal s = (.error e, s)) ∨
    s.box.createFault = none ∧ ∃ phases, Rise (Act.idOf s.box spec ordinal) phases s
      (bringUp settings spec timeout ordinal s).2 := by
  cases h : bringUp settings spec timeout ordinal s with
  | mk r t =>
    cases r with
    | ok c =>
      obtain ⟨p, u, hevaluated, rfl, -⟩ := bringUp_eq_ok h
      obtain ⟨hnone, hid⟩ := id_of_evaluated hevaluated
      exact .inr ⟨hnone, _, hid ▸ (bringUp_watched hs h).toRise⟩
    | error e =>
      obtain ⟨leg, hf⟩ := exists_failsIn h
      -- Either the creation failed and nothing has happened, or there is a container that rises.
      obtain ⟨t', hup, ⟨hsome, -, rfl⟩ | ⟨hnone, hrise⟩⟩ := bringUp_of_failsIn hs hf
      · rw [h] at hup
        exact .inl ⟨e, hsome, hup⟩
      · rw [h] at hup
        cases hup
        exact .inr ⟨hnone, _, hrise⟩

end

end Lifecycle
end Slipway
