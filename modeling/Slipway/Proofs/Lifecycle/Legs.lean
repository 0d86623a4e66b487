import Slipway.Lifecycle
import Slipway.Proofs.Injection

/-!
# `Slipway.Proofs.Lifecycle.Legs`: the way to a ready container in legs

A container is brought up in five legs: it is created, it is started, the steps before it is ready
are run, it is waited for, and the steps after are run. `created`, `started`, `prepared` and
`evaluated` are the way up to the end of a leg, and `bringUp_eq` states the whole way through the
last of them.

`FailsIn` says that a leg is the one that fails. `bringUp_of_failsIn` and `exists_failsIn` state
that bringing up ends with a fault exactly if a leg fails with it, and `Leg.course` gives the phases
that have been entered then. -/

set_option autoImplicit false

namespace Slipway

open Slipway.World (Act Note Stage)

/-! ### Creation -/

namespace World.Act

/-- To give a value is to be pure. -/
theorem give_eq_pure {α : Type} (a : α) : (give a : Act α) = pure a := rfl

/-- Making a note of each item of a list adds these notes, and that is all. -/
theorem forM_note {α : Type} (f : α → Note) (xs : List α) (s : Stage) :
    (xs.forM fun x => note (f x)) s =
      (.ok (), { s with trace := s.trace ++ xs.map fun x => ⟨s.now, f x⟩ }) := by
  induction xs generalizing s with
  | nil => simp [List.forM, ← give_eq_pure, give]
  | cons x rest ih =>
    have hx : note (f x) s = (.ok (), s.note (f x)) := rfl
    show (note (f x) >>= fun _ => rest.forM fun x => note (f x) : Act Unit) s = _
    rw [bind_of_ok hx, ih]
    simp [Stage.note, List.append_assoc]

/-- What is noted of a container that is created. -/
def creationOf (id : String) (spec : Spec) (now : Int) : Trace :=
  ⟨now, .event id (.create spec.imageRef)⟩ ::
    spec.copyTo.map fun p => ⟨now, .stored id p.target p.content⟩

/-- A creation fails with the fault of the box, or gives the identifier. -/
theorem create_eq (spec : Spec) (ordinal : Nat) (s : Stage) :
    create spec ordinal s = (match s.box.createFault with
      | some e => (.error e, s)
      | none =>
        let id := idOf s.box spec ordinal
        (.ok id, { s with trace := s.trace ++ creationOf id spec s.now, id := some id })) := by
  unfold create
  rw [bind_of_ok (show stage s = (.ok s, s) from rfl)]
  cases s.box.createFault with
  | some e => exact bind_of_error rfl
  | none =>
    rw [bind_of_ok (show failIf none s = (.ok (), s) from rfl)]
    -- The creation is noted, then the files that are stored. The id is set last.
    refine (bind_of_ok rfl).trans ((bind_of_ok (forM_note _ spec.copyTo _)).trans ?_)
    simp [Stage.note, creationOf, List.append_assoc]

end World.Act

/-- Whether a note is of the creation or the start of a container. -/
def World.Note.IsOpening (id : String) : World.Note → Prop
  | .event i (.create _) => i = id
  | .event i .start => i = id
  | .event i .inspect => i = id
  | .stored i _ _ => i = id
  | .line _ _ => True
  | _ => False

namespace Lifecycle

/-- Whether notes of a kind are all that a container of a spec takes to be created and started. -/
structure Opens (P : Note → Prop) (spec : Spec) (id : String) : Prop where
  create : P (.event id (.create spec.imageRef))
  stored : ∀ p ∈ spec.copyTo, P (.stored id p.target p.content)
  start : P (.event id .start)
  inspect : P (.event id .inspect)
  line : ∀ text, P (.line .info text)

/-- Opening notes open. -/
theorem isOpening_opens (spec : Spec) (id : String) : Opens (Note.IsOpening id) spec id where
  create := rfl
  stored _ _ := rfl
  start := rfl
  inspect := rfl
  line _ := trivial

/-- A creation goes on from the stage that already has the id. -/
theorem creationOf_onward {P : Note → Prop} {id : String} {spec : Spec} (hP : Opens P spec id)
    (s : Stage) :
    { s with id := some id }.Onward P []
      { s with trace := s.trace ++ Act.creationOf id spec s.now, id := some id } := by
  refine ⟨rfl, rfl, (List.append_nil _).symm, Int.le_refl _, _, rfl, fun x hx => ?_⟩
  rcases List.mem_cons.mp hx with rfl | hx
  · exact ⟨Int.le_refl _, Int.le_refl _, hP.create⟩
  · obtain ⟨p, hp, rfl⟩ := List.mem_map.mp hx
    exact ⟨Int.le_refl _, Int.le_refl _, hP.stored p hp⟩

/-! ### Phases -/

/-- Entering a phase notes a line. It takes no time, and the box stays as it is. -/
theorem enter_eq (spec : Spec) (p : Phase) (s : Stage) :
    ∃ t, enter spec p s = (.ok (), t) ∧ t.box = s.box ∧ t.now = s.now ∧
      ∀ P : Note → Prop, (∀ text, P (.line .info text)) → s.Onward P [p] t := by
  refine ⟨_, rfl, rfl, rfl, fun P hP => ⟨rfl, rfl, rfl, Int.le_refl _, [_], rfl, ?_⟩⟩
  intro x hx
  rw [List.mem_singleton.mp hx]
  exact ⟨Int.le_refl _, Int.le_refl _, hP _⟩

/-- A phase of its own for a list of sources, if there are any. -/
def optional (p : Phase) (sources : List Source) : List Phase :=
  if sources.isEmpty then [] else [p]

/-- The phases of a lifecycle before the last. -/
def course (spec : Spec) : List Phase :=
  [.created, .started] ++ optional .preReadyExec spec.execBeforeReady ++ [.evaluating]
    ++ optional .postStartExec spec.execAfterStart

/-- Running steps as a phase of its own enters that phase, if there are any. -/
theorem runPhase_onward (spec : Spec) (p : Phase) (t : Injection.Target) (sources : List Source)
    (s : Stage) :
    s.Onward (Note.IsDeed t.container.id) (optional p sources) (runPhase spec p t sources s).2 := by
  cases sources with
  | nil => exact .refl _ s
  | cons source rest =>
    -- The phase is entered before the first step, so it counts even if that step fails.
    obtain ⟨u, henter, -, -, honward⟩ := enter_eq spec p s
    show Stage.Onward _ _ s
        ((enter spec p >>= fun _ => Injection.runAll t _ >>= fun _ => pure ()) s).2
    rw [Act.bind_of_ok henter]
    exact (honward _ fun _ => trivial).trans
      (((Injection.runAll_goes t _).bind fun _ => Act.goes_pure ()) u)

/-- Phases for sources are related if entering them and running the sources are. -/
theorem runPhase_relates {R : (α : Type) → Act α → Act α → Prop} (hR : Act.Relates R) {spec : Spec}
    {p : Phase} (t t' : Injection.Target) {sources : List Source}
    (henter : R Unit (enter spec p) (enter spec p))
    (hrun : R (List ExecResult) (Injection.runAll t sources) (Injection.runAll t' sources)) :
    R Unit (runPhase spec p t sources) (runPhase spec p t' sources) := by
  unfold runPhase
  split
  · exact hR.give ()
  · exact hR.bind henter fun _ => hR.bind hrun fun _ => hR.give ()

/-- A phase for sources has what entering it and running them have. -/
theorem runPhase_composes {P : (α : Type) → Act α → Prop} (hP : Act.Composes P) {spec : Spec}
    {p : Phase} {t : Injection.Target} {sources : List Source} (henter : P Unit (enter spec p))
    (hrun : P (List ExecResult) (Injection.runAll t sources)) :
    P Unit (runPhase spec p t sources) :=
  runPhase_relates hP.relates t t henter hrun

/-! ### The start -/

/-- What goes wrong when a container is started and looked at, if anything does. -/
def stumble (box : World.Box) (id : String) : Option Fault :=
  box.startFault.or (box.statusFault.or
    (if box.status = "running" then box.inspectFault
    else some (.failure (.startFailed id
      ("status is " ++ Text.Quoted.ofString box.status ++ " after start")))))

/-- Whatever is noted of a start holds of opening notes. -/
theorem start_goes {P : Note → Prop} {spec : Spec} {id : String} (hP : Opens P spec id) :
    Act.Goes P (start spec id) := by
  have hstart : Act.Goes P (Act.start id) := Act.goes_start hP.start
  refine hstart.bind fun _ => Act.goes_status.bind fun status => ?_
  split
  · exact Act.goes_inspect hP.inspect
  · exact Act.goes_fail _

/-- The call that starts a container ends with the fault of the box for it, if there is one. -/
theorem actStart_eq (id : String) (s : Stage) :
    ∃ t u, t.box = s.box ∧ Act.start id s = (match s.box.startFault with
      | some e => (.error e, u)
      | none => (.ok (), t)) := by
  let u := (s.note (.event id .start)).pass s.box.startTook
  refine ⟨{ u with startedAt := Clock.toMillis u.now }, u, rfl, ?_⟩
  show (Act.failIf s.box.startFault >>= fun _ => _ : Act Unit) _ = _
  cases s.box.startFault <;> rfl

/-- The status is that of the box, or its fault. -/
theorem status_eq (s : Stage) :
    Act.status s = (match s.box.statusFault with
      | some e => (.error e, s)
      | none => (.ok s.box.status, s)) := by
  show (Act.failIf s.box.statusFault >>= fun _ => _ : Act String) _ = _
  cases s.box.statusFault <;> rfl

/-- An inspection reads the container off the box, or fails with the fault of the box. -/
theorem inspect_eq (spec : Spec) (id : String) (s : Stage) :
    Act.inspect spec id s = (match s.box.inspectFault with
      | some e => (.error e, s.note (.event id .inspect))
      | none => (.ok ⟨id, s.box.host, s.box.portTable spec.exposedPorts,
          some (World.timestampOf s.startedAt)⟩, s.note (.event id .inspect))) := by
  show (Act.failIf s.box.inspectFault >>= fun _ => _ : Act Container) _ = _
  cases s.box.inspectFault <;> rfl

/-- A start goes wrong exactly if its box stumbles. Otherwise the container is looked at last. -/
theorem start_eq (spec : Spec) (id : String) (s : Stage) :
    match stumble s.box id with
    | some e => (start spec id s).1 = .error e
    | none => ∃ c t earlier, start spec id s = (.ok c, t) ∧ c.id = id ∧
        t.trace = earlier ++ [⟨t.now, .event id .inspect⟩] := by
  obtain ⟨t, u, hbox, hstart⟩ := actStart_eq id s
  unfold stumble
  cases hs : s.box.startFault with
  | some e =>
    rw [hs] at hstart
    exact congrArg Prod.fst (Act.bind_of_error hstart)
  | none =>
    rw [hs] at hstart
    have hstatus := status_eq t
    rw [hbox] at hstatus
    simp only [Option.none_or, start]
    rw [Act.bind_of_ok hstart]
    cases ht : s.box.statusFault with
    | some e =>
      rw [ht] at hstatus
      rw [Act.bind_of_error hstatus]
      rfl
    | none =>
      rw [ht] at hstatus
      rw [Act.bind_of_ok hstatus]
      simp only [Option.none_or]
      -- A container that does not run is not looked at, so its fault for that does not count.
      by_cases hrun : s.box.status = "running"
      · have hinspect := inspect_eq spec id t
        rw [hbox] at hinspect
        rw [if_pos hrun, if_pos hrun]
        cases hi : s.box.inspectFault with
        | some e =>
          rw [hi] at hinspect
          exact congrArg Prod.fst hinspect
        | none =>
          rw [hi] at hinspect
          exact ⟨_, _, t.trace, hinspect, rfl, rfl⟩
      · rw [if_neg hrun, if_neg hrun]
        rfl

/-! ### Legs -/

section
variable (settings : Settings) (spec : Spec) (timeout : Option Binary64) (ordinal : Nat)

/-- The way up to a created container. -/
def created : Act String := do
  let id ← Act.create spec ordinal
  enter spec .created
  Act.give id

/-- The way up to a started container, and the deadline for all that follows. -/
def started : Act (Container × Deadline) := do
  let id ← created spec ordinal
  let container ← start spec id
  enter spec .started
  let s ← Act.stage
  Act.give (container, Deadline.start s.now (timeoutOf settings spec timeout))

/-- What the steps of a lifecycle are run against. -/
def targetOf (p : Container × Deadline) : Injection.Target := ⟨p.1, settings, some p.2⟩

/-- The way up to a container for which the steps before it is ready have been run. -/
def prepared : Act (Container × Deadline) := do
  let p ← started settings spec timeout ordinal
  runPhase spec .preReadyExec (targetOf settings p) spec.execBeforeReady
  enter spec .evaluating
  Act.give p

/-- The way up to a container that has been waited for. -/
def evaluated : Act (Container × Deadline) := do
  let p ← prepared settings spec timeout ordinal
  Injection.await (targetOf settings p) spec.waitFor p.2
  Act.give p

/-- Bringing up ends with the commands after the evaluation. -/
theorem bringUp_eq :
    bringUp settings spec timeout ordinal = (do
      let p ← evaluated settings spec timeout ordinal
      runPhase spec .postStartExec (targetOf settings p) spec.execAfterStart
      Act.give p.1) := by
  simp only [bringUp, evaluated, prepared, started, created, targetOf, Act.give_eq_pure, bind_assoc,
    pure_bind]

/-- The legs of a lifecycle. -/
inductive Leg where
  | creation
  | start
  | preReady
  | evaluation
  | postStart
deriving DecidableEq, Repr

/-- The phases that have been entered while a leg is under way. -/
def Leg.course (spec : Spec) : Leg → List Phase
  | creation => []
  | start => [.created]
  | preReady => [.created, .started, .preReadyExec]
  | evaluation =>
    [.created, .started] ++ optional .preReadyExec spec.execBeforeReady ++ [.evaluating]
  | postStart =>
    [.created, .started] ++ optional .preReadyExec spec.execBeforeReady ++ [.evaluating]
      ++ [.postStartExec]

/-- Whether a leg is the one that fails, and with which fault. -/
def FailsIn (leg : Leg) (e : Fault) (s : Stage) : Prop :=
  match leg with
  | .creation => (Act.create spec ordinal s).1 = .error e
  | .start => ∃ id t, created spec ordinal s = (.ok id, t) ∧ (start spec id t).1 = .error e
  | .preReady => ∃ p t, started settings spec timeout ordinal s = (.ok p, t) ∧
      (runPhase spec .preReadyExec (targetOf settings p) spec.execBeforeReady t).1 = .error e
  | .evaluation => ∃ p t, prepared settings spec timeout ordinal s = (.ok p, t) ∧
      (Injection.await (targetOf settings p) spec.waitFor p.2 t).1 = .error e
  | .postStart => ∃ p t, evaluated settings spec timeout ordinal s = (.ok p, t) ∧
      (runPhase spec .postStartExec (targetOf settings p) spec.execAfterStart t).1 = .error e

/-! ### Where the way ends -/

variable {settings spec timeout ordinal} {s t : Stage} {e : Fault}

/-- What fails in the creation is not started. -/
theorem started_of_created (h : created spec ordinal s = (.error e, t)) :
    started settings spec timeout ordinal s = (.error e, t) :=
  Act.bind_of_error h

/-- What fails in the start is not prepared. -/
theorem prepared_of_started (h : started settings spec timeout ordinal s = (.error e, t)) :
    prepared settings spec timeout ordinal s = (.error e, t) :=
  Act.bind_of_error h

/-- What fails in the preparation is not evaluated. -/
theorem evaluated_of_prepared (h : prepared settings spec timeout ordinal s = (.error e, t)) :
    evaluated settings spec timeout ordinal s = (.error e, t) :=
  Act.bind_of_error h

/-- What fails in the evaluation is not brought up. -/
theorem bringUp_of_evaluated (h : evaluated settings spec timeout ordinal s = (.error e, t)) :
    bringUp settings spec timeout ordinal s = (.error e, t) := by
  rw [bringUp_eq]
  exact Act.bind_of_error h

/-- A prepared container has been waited for when the wait ends well. -/
theorem evaluated_of_wait {p : Container × Deadline}
    (h : prepared settings spec timeout ordinal s = (.ok p, t))
    (hwait : (Injection.ending (targetOf settings p) spec.waitFor p.2 t).fault = none) :
    evaluated settings spec timeout ordinal s = (.ok p, { t with
      now := (Injection.ending (targetOf settings p) spec.waitFor p.2 t).stop,
      trace := t.trace ++ (Injection.ending (targetOf settings p) spec.waitFor p.2 t).trace }) :=
  (Act.bind_of_ok h).trans (Act.bind_of_ok (Injection.await_eq_ok hwait))

/-- If the wait does not end well, the way up ends there. -/
theorem bringUp_of_wait {p : Container × Deadline}
    (h : prepared settings spec timeout ordinal s = (.ok p, t))
    (hwait : (Injection.ending (targetOf settings p) spec.waitFor p.2 t).fault = some e) :
    bringUp settings spec timeout ordinal s = (.error e, { t with
      now := (Injection.ending (targetOf settings p) spec.waitFor p.2 t).stop,
      trace := t.trace ++ (Injection.ending (targetOf settings p) spec.waitFor p.2 t).trace }) :=
  bringUp_of_evaluated
    ((Act.bind_of_ok h).trans (Act.bind_of_error (Injection.await_eq_error hwait)))

/-- A creation fails only with the fault of the box, and leaves nothing behind. -/
theorem created_eq_error (h : created spec ordinal s = (.error e, t)) :
    s.box.createFault = some e ∧ t = s := by
  have hcreate := Act.create_eq spec ordinal s
  cases hf : s.box.createFault with
  | some f =>
    rw [hf] at hcreate
    rw [created, Act.bind_of_error hcreate] at h
    cases h
    exact ⟨rfl, rfl⟩
  | none =>
    rw [hf] at hcreate
    rw [created, Act.bind_of_ok hcreate] at h
    cases h

/-- A container that is created is noted first. -/
theorem created_eq_ok {id : String} (h : created spec ordinal s = (.ok id, t)) :
    s.box.createFault = none ∧ id = Act.idOf s.box spec ordinal ∧ t.box = s.box ∧
      { s with id := some id }.Onward (Note.IsOpening id) [.created] t ∧
      ⟨s.now, .event id (.create spec.imageRef)⟩ ∈ t.trace := by
  have hcreate := Act.create_eq spec ordinal s
  cases hf : s.box.createFault with
  | some f =>
    rw [hf] at hcreate
    rw [created, Act.bind_of_error hcreate] at h
    cases h
  -- The creation is noted first, and then the phase is entered.
  | none =>
    rw [hf] at hcreate
    rw [created, Act.bind_of_ok hcreate] at h
    obtain ⟨u, henter, hbox, -, honward⟩ := enter_eq spec .created _
    rw [Act.bind_of_ok henter] at h
    cases h
    have hphase := honward (Note.IsOpening (Act.idOf s.box spec ordinal)) fun _ => trivial
    exact ⟨rfl, rfl, hbox, (creationOf_onward (isOpening_opens spec _) s).trans hphase,
      hphase.mem_trace (by simp [Act.creationOf])⟩

/-- A container that is started has the id it was created with, and was looked at. -/
theorem started_eq_ok {p : Container × Deadline}
    (h : started settings spec timeout ordinal s = (.ok p, t)) :
    ∃ u, created spec ordinal s = (.ok p.1.id, u) ∧
      u.Onward (Note.IsOpening p.1.id) [.started] t ∧
      ∃ x ∈ t.trace, x.time ≤ t.now ∧ x.note = .event p.1.id .inspect := by
  obtain ⟨id, u, hcreated, h⟩ := Act.bind_eq_ok.mp h
  obtain ⟨c, v, hstart, h⟩ := Act.bind_eq_ok.mp h
  obtain ⟨w, henter, -, hnow, hphase⟩ := enter_eq spec .started v
  rw [Act.bind_of_ok henter] at h
  cases h
  have honward := start_goes (isOpening_opens spec id) u
  have heq := start_eq spec id u
  rw [hstart] at honward heq
  split at heq
  · cases heq
  · -- The look at the container is the last thing noted before the phase.
    obtain ⟨c', t', earlier, heq, rfl, htrace⟩ := heq
    cases heq
    have hphase := hphase (Note.IsOpening c.id) fun _ => trivial
    exact ⟨u, hcreated, honward.trans hphase, ⟨v.now, .event c.id .inspect⟩,
      hphase.mem_trace (by simp [htrace]), Int.le_of_eq hnow.symm, rfl⟩

/-- A container is prepared after its start, by the commands that come first. -/
theorem prepared_eq_ok {p : Container × Deadline}
    (h : prepared settings spec timeout ordinal s = (.ok p, t)) :
    ∃ u, started settings spec timeout ordinal s = (.ok p, u) ∧
      u.Onward (Note.IsDeed p.1.id)
        (optional .preReadyExec spec.execBeforeReady ++ [.evaluating]) t := by
  obtain ⟨q, u, hstarted, h⟩ := Act.bind_eq_ok.mp h
  obtain ⟨_, v, hphase, h⟩ := Act.bind_eq_ok.mp h
  obtain ⟨w, henter, -, -, honward⟩ := enter_eq spec .evaluating v
  rw [Act.bind_of_ok henter] at h
  cases h
  have hrun := runPhase_onward spec .preReadyExec (targetOf settings p) spec.execBeforeReady u
  rw [hphase] at hrun
  exact ⟨u, hstarted, hrun.trans (honward _ fun _ => trivial)⟩

/-- A container is evaluated after its preparation, by the wait for its conditions. -/
theorem evaluated_eq_ok {p : Container × Deadline}
    (h : evaluated settings spec timeout ordinal s = (.ok p, t)) :
    ∃ u, prepared settings spec timeout ordinal s = (.ok p, u) ∧
      Injection.await (targetOf settings p) spec.waitFor p.2 u = (.ok (), t) := by
  obtain ⟨q, u, hprepared, h⟩ := Act.bind_eq_ok.mp h
  obtain ⟨_, v, hawait, h⟩ := Act.bind_eq_ok.mp h
  cases h
  exact ⟨u, hprepared, hawait⟩

/-- The deadline is fresh when the container has been started. -/
theorem started_deadline {p : Container × Deadline}
    (h : started settings spec timeout ordinal s = (.ok p, t)) :
    p.2 = .start t.now (timeoutOf settings spec timeout) := by
  obtain ⟨id, u, -, h⟩ := Act.bind_eq_ok.mp h
  obtain ⟨c, v, -, h⟩ := Act.bind_eq_ok.mp h
  obtain ⟨w, henter, -⟩ := enter_eq spec .started v
  rw [Act.bind_of_ok henter] at h
  cases h
  rfl

/-- Until a container has been started, only what its opening takes is noted. -/
theorem started_onward {P : Note → Prop} {p : Container × Deadline}
    (hP : Opens P spec (Act.idOf s.box spec ordinal))
    (h : started settings spec timeout ordinal s = (.ok p, t)) :
    { s with id := some (Act.idOf s.box spec ordinal) }.Onward P [.created, .started] t := by
  obtain ⟨id, u, hcreated, h⟩ := Act.bind_eq_ok.mp h
  obtain ⟨c, v, hstart, h⟩ := Act.bind_eq_ok.mp h
  obtain ⟨w, henter, -, -, hphase⟩ := enter_eq spec .started v
  rw [Act.bind_of_ok henter] at h
  cases h
  -- Created, entered, started, entered: each goes on from the one before.
  obtain ⟨id', u', hcreate, h⟩ := Act.bind_eq_ok.mp hcreated
  obtain ⟨w', henter', -, -, hphase'⟩ := enter_eq spec .created u'
  rw [Act.bind_of_ok henter'] at h
  cases h
  rw [Act.create_eq] at hcreate
  split at hcreate
  · cases hcreate
  · cases hcreate
    have honward := start_goes hP u
    rw [hstart] at honward
    exact (((creationOf_onward hP s).trans (hphase' P hP.line)).trans honward).trans
      (hphase P hP.line)

/-- A container that was started has only been opened. -/
theorem started_opening {p : Container × Deadline}
    (h : started settings spec timeout ordinal s = (.ok p, t)) :
    { s with id := some p.1.id }.Onward (Note.IsOpening p.1.id) [.created, .started] t := by
  obtain ⟨u, hcreated, -⟩ := started_eq_ok h
  obtain ⟨-, hid, -⟩ := created_eq_ok hcreated
  rw [hid]
  exact started_onward (isOpening_opens spec _) h

/-- A start that goes well tells what the box says of the container, and leaves the box as it is. -/
theorem start_eq_ok {id : String} {c : Container} (h : start spec id s = (.ok c, t)) :
    t.box = s.box ∧ c.id = id ∧ c.host = s.box.host ∧
    c.ports = s.box.portTable spec.exposedPorts := by
  obtain ⟨_, v, hstart, hrest⟩ := Act.bind_eq_ok.mp h
  obtain ⟨status, w, hstatus, hinspect⟩ := Act.bind_eq_ok.mp hrest
  obtain ⟨v', _, hv, hstartEq⟩ := actStart_eq id s
  have hvs : v.box = s.box := by
    rw [hstartEq] at hstart
    split at hstart <;> cases hstart
    exact hv
  have hwv : w = v := by
    rw [status_eq] at hstatus
    split at hstatus <;> cases hstatus
    rfl
  subst hwv
  -- Only a container that runs is inspected.
  split at hinspect
  · rw [inspect_eq] at hinspect
    split at hinspect <;> cases hinspect
    exact ⟨hvs, rfl, congrArg World.Box.host hvs, congrArg (World.Box.portTable · _) hvs⟩
  · cases hinspect

/-- A container that has been started is what its box says of it, and the box is the one that it was
created in. -/
theorem box_of_started {p : Container × Deadline}
    (h : started settings spec timeout ordinal s = (.ok p, t)) :
    t.box = s.box ∧ p.1.host = s.box.host ∧ p.1.ports = s.box.portTable spec.exposedPorts := by
  obtain ⟨id, u, hcreated, h⟩ := Act.bind_eq_ok.mp h
  obtain ⟨c, v, hstart, h⟩ := Act.bind_eq_ok.mp h
  obtain ⟨w, henter, hbox, -⟩ := enter_eq spec .started v
  rw [Act.bind_of_ok henter] at h
  cases h
  obtain ⟨-, -, hcreatedBox, -⟩ := created_eq_ok hcreated
  obtain ⟨hstartBox, -, hhost, hports⟩ := start_eq_ok hstart
  rw [hbox, hstartBox, ← hcreatedBox]
  exact ⟨rfl, hhost, hports⟩

/-- A start leaves the script of the box as it is. -/
theorem started_box {p : Container × Deadline}
    (h : started settings spec timeout ordinal s = (.ok p, t)) : t.box = s.box :=
  (box_of_started h).1

/-- The container that is brought up has the id with which it is created. -/
theorem id_of_started {p : Container × Deadline}
    (h : started settings spec timeout ordinal s = (.ok p, t)) :
    s.box.createFault = none ∧ p.1.id = Act.idOf s.box spec ordinal := by
  obtain ⟨u, hcreated, -⟩ := started_eq_ok h
  obtain ⟨hnone, hid, -⟩ := created_eq_ok hcreated
  exact ⟨hnone, hid⟩

/-- A container that was prepared has the identifier of its creation. -/
theorem id_of_prepared {p : Container × Deadline}
    (h : prepared settings spec timeout ordinal s = (.ok p, t)) :
    s.box.createFault = none ∧ p.1.id = Act.idOf s.box spec ordinal := by
  obtain ⟨u, hstarted, -⟩ := prepared_eq_ok h
  exact id_of_started hstarted

/-- So has one that was evaluated. -/
theorem id_of_evaluated {p : Container × Deadline}
    (h : evaluated settings spec timeout ordinal s = (.ok p, t)) :
    s.box.createFault = none ∧ p.1.id = Act.idOf s.box spec ordinal := by
  obtain ⟨u, hprepared, -⟩ := evaluated_eq_ok h
  exact id_of_prepared hprepared

/-- A container is brought up after its evaluation, by the commands that come last. -/
theorem bringUp_eq_ok {c : Container} (h : bringUp settings spec timeout ordinal s = (.ok c, t)) :
    ∃ p u, evaluated settings spec timeout ordinal s = (.ok p, u) ∧ c = p.1 ∧
      u.Onward (Note.IsDeed p.1.id) (optional .postStartExec spec.execAfterStart) t := by
  rw [bringUp_eq] at h
  obtain ⟨p, u, hevaluated, h⟩ := Act.bind_eq_ok.mp h
  obtain ⟨_, v, hphase, h⟩ := Act.bind_eq_ok.mp h
  cases h
  have hrun := runPhase_onward spec .postStartExec (targetOf settings p) spec.execAfterStart u
  rw [hphase] at hrun
  exact ⟨p, u, hevaluated, rfl, hrun⟩

end

end Lifecycle
end Slipway
