import Slipway.Proofs.Lifecycle.Closing

/-!
# `Slipway.Proofs.Lifecycle.Chronicle`: what an outcome tells of its lifecycle

The history of an outcome, its other fields and the trace are three records of one lifecycle.
`Chronicle` states how they belong together. The history is the whole course and `ready`, or the
phases up to the leg that failed and `failed`; the fields follow the last phase; nothing is done
with the container before it was looked at, and the wait for it comes after the steps before and
before the steps after. `run_tells` states that every lifecycle with an outcome has it. -/

set_option autoImplicit false

namespace Slipway.Lifecycle

open Slipway.World (Act Note Stage Trace)

section
variable {settings : Settings} {spec : Spec} {timeout : Option Binary64} {ordinal : Nat}
variable {leg leg' : Leg} {s t u : Stage} {e e' : Fault}

/-! ### Which leg fails -/

/-- The phase that is entered last before a leg, if one is. -/
def Leg.phase : Leg → Option Phase
  | creation => none
  | start => some .created
  | preReady => some .preReadyExec
  | evaluation => some .evaluating
  | postStart => some .postStartExec

/-- The course up to a leg ends with the phase in which the leg fails. -/
theorem Leg.getLast?_course (spec : Spec) (leg : Leg) : (leg.course spec).getLast? = leg.phase := by
  cases leg with
  | creation => rfl
  | start => rfl
  | preReady => rfl
  | evaluation => exact List.getLast?_concat
  | postStart => exact List.getLast?_concat

/-- The phases entered before a leg tell which leg it is. -/
theorem Leg.course_injective (h : leg.course spec = leg'.course spec) : leg = leg' := by
  have hphase : leg.phase = leg'.phase := by
    rw [← leg.getLast?_course spec, h, leg'.getLast?_course]
  cases leg <;> cases leg' <;> first | rfl | cases hphase

/-- The phases up to a leg that fails are the first of the course. -/
theorem course_prefix_of_failsIn (h : FailsIn settings spec timeout ordinal leg e s) :
    leg.course spec <+: course spec := by
  cases leg with
  | creation => exact List.nil_prefix
  | start => exact ⟨_, rfl⟩
  -- A leg of commands is reached only if there are any, so its phase is entered.
  | preReady =>
    obtain ⟨p, t, -, hphase⟩ := h
    have hopt := optional_of_runPhase hphase
    exact ⟨[.evaluating] ++ optional .postStartExec spec.execAfterStart, by
      simp [Leg.course, course, hopt]⟩
  | evaluation => exact ⟨_, rfl⟩
  | postStart =>
    obtain ⟨p, t, -, hphase⟩ := h
    have hopt := optional_of_runPhase hphase
    exact ⟨[], by simp [Leg.course, course, hopt]⟩

/-- Bringing up ends in the phases of the leg that fails. -/
theorem history_of_failsIn (hs : s.trace = []) (h : FailsIn settings spec timeout ordinal leg e s) :
    ∃ t, bringUp settings spec timeout ordinal s = (.error e, t) ∧
      t.history = s.history ++ leg.course spec := by
  obtain ⟨t, hup, ⟨-, rfl, rfl⟩ | ⟨-, hrise⟩⟩ := bringUp_of_failsIn hs h
  · exact ⟨t, hup, (List.append_nil _).symm⟩
  · exact ⟨t, hup, hrise.onward.history⟩

/-- At most one leg fails, with one fault. -/
theorem failsIn_unique (hs : s.trace = []) (h : FailsIn settings spec timeout ordinal leg e s)
    (h' : FailsIn settings spec timeout ordinal leg' e' s) : leg = leg' ∧ e = e' := by
  obtain ⟨t, hup, hhistory⟩ := history_of_failsIn hs h
  obtain ⟨t', hup', hhistory'⟩ := history_of_failsIn hs h'
  rw [hup] at hup'
  cases hup'
  -- Both legs ended on one stage, whose history tells the leg.
  exact ⟨Leg.course_injective (List.append_cancel_left (hhistory.symm.trans hhistory')), rfl⟩

/-- The creation fails exactly if the box has a fault for it. -/
theorem failsIn_creation :
    FailsIn settings spec timeout ordinal .creation e s ↔ s.box.createFault = some e := by
  rw [FailsIn, Act.create_eq]
  cases s.box.createFault <;> simp

/-- The start fails exactly if there is a container that stumbles. -/
theorem failsIn_start :
    FailsIn settings spec timeout ordinal .start e s ↔
      s.box.createFault = none ∧ stumble s.box (Act.idOf s.box spec ordinal) = some e := by
  -- A start fails after the creation, and what stands in its way is read off the box.
  constructor
  · rintro ⟨id, t, hcreated, hstart⟩
    obtain ⟨hfault, rfl, hbox, -⟩ := created_eq_ok hcreated
    have heq := start_eq spec (Act.idOf s.box spec ordinal) t
    rw [hbox] at heq
    refine ⟨hfault, ?_⟩
    split at heq
    · rename_i f hf
      rw [hf]
      rw [heq] at hstart
      cases hstart
      rfl
    · obtain ⟨c, v, -, hok, -⟩ := heq
      rw [hok] at hstart
      cases hstart
  · rintro ⟨hfault, hstumble⟩
    cases hcreated : created spec ordinal s with
    | mk r t =>
      cases r with
      -- The creation cannot have failed here.
      | error f =>
        obtain ⟨hsome, -⟩ := created_eq_error hcreated
        rw [hfault] at hsome
        cases hsome
      | ok id =>
        obtain ⟨-, rfl, hbox, -⟩ := created_eq_ok hcreated
        have heq := start_eq spec (Act.idOf s.box spec ordinal) t
        rw [hbox, hstumble] at heq
        exact ⟨_, t, hcreated, heq⟩

/-- A start fails exactly at a fault of the start, the status or the inspection, or at a status
other than running. -/
theorem stumble_isSome (box : World.Box) (id : String) :
    (stumble box id).isSome ↔ box.startFault.isSome ∨ box.statusFault.isSome ∨
      box.status ≠ "running" ∨ box.inspectFault.isSome := by
  unfold stumble
  by_cases hrun : box.status = "running"
  · simp [hrun]
  · simp [hrun]

/-! ### The wait of a lifecycle -/

/-- The wait of a lifecycle, for a container for which the steps before it is ready have been run.
-/
def waitOf (settings : Settings) (spec : Spec) (p : Container × Deadline) (u : Stage) :
    Readiness.Ending :=
  Injection.ending (targetOf settings p) spec.waitFor p.2 u

/-- Bringing up notes what it noted until the container was prepared, what the wait notes, and, if
that ends well, what comes after it. -/
theorem bringUp_of_prepared {p : Container × Deadline}
    (h : prepared settings spec timeout ordinal s = (.ok p, u)) :
    ∃ rest, (bringUp settings spec timeout ordinal s).2.trace =
        u.trace ++ (waitOf settings spec p u).trace ++ rest ∧
      (waitOf settings spec p u).stop ≤ (bringUp settings spec timeout ordinal s).2.now ∧
      (∀ x ∈ rest, (waitOf settings spec p u).stop ≤ x.time) ∧
      ((waitOf settings spec p u).fault.isSome → rest = []) := by
  -- A wait that fails is the last thing in the trace; otherwise the commands after it follow.
  cases hwait : (waitOf settings spec p u).fault with
  | some f =>
    rw [bringUp_of_wait h hwait]
    exact ⟨[], (List.append_nil _).symm, Int.le_refl _, nofun, fun _ => rfl⟩
  | none =>
    rw [bringUp_eq, Act.bind_of_ok (evaluated_of_wait h hwait), Act.snd_bind_give]
    have hafter := runPhase_onward spec .postStartExec (targetOf settings p) spec.execAfterStart
      { u with
        now := (waitOf settings spec p u).stop,
        trace := u.trace ++ (waitOf settings spec p u).trace }
    obtain ⟨rest, hrest, hP⟩ := hafter.trace
    exact ⟨rest, hrest, hafter.le_now, fun x hx => (hP x hx).1, nofun⟩

end

/-! ### The chronicle -/

section
variable (settings : Settings) (spec : Spec) (timeout : Option Binary64) (ordinal : Nat)

/-- How the history and the other fields of an outcome tell which leg has failed. -/
structure Chronicle (s : Stage) (o : Outcome) : Prop where
  /-- The history is the whole course, or a part of it from the start. -/
  shape : o.history = course spec ++ [.ready] ∨
    ∃ phases, phases <+: course spec ∧ o.history = phases ++ [.failed]
  /-- The part is that of the leg that failed. -/
  leg : ∀ leg : Leg, o.history = leg.course spec ++ [.failed] ↔
    ∃ f, FailsIn settings spec timeout ordinal leg (.failure f) s
  creation : o.history = [.failed] ↔ s.box.createFault.isSome
  start : o.history = [.created, .failed] ↔ s.box.createFault = none ∧
    (s.box.startFault.isSome ∨ s.box.statusFault.isSome ∨ s.box.status ≠ "running" ∨
      s.box.inspectFault.isSome)
  ready : o.phase = .ready ↔ o.history.getLast? = some .ready
  ready_fields : o.phase = .ready ↔ o.container.isSome ∧ o.failure = none
  failed : o.phase = .failed ↔ o.container = none ∧
    ∃ leg f, FailsIn settings spec timeout ordinal leg (.failure f) s ∧ o.failure = some f
  unwrap_ready : o.phase = .ready → ∃ c, o.container = some c ∧ o.unwrap = .ok c
  unwrap_failed : o.phase = .failed → ∃ f, o.failure = some f ∧ o.unwrap = .error f

/-- In which order a lifecycle notes what it does. -/
structure Sequence (s t : Stage) : Prop where
  /-- Nothing is done with the container before it was looked at. -/
  inspectsFirst : ∀ id, t.id = some id → t.trace.InspectsFirst id
  idle : t.id = none → ∀ x ∈ t.trace, ¬ x.note.IsWork
  /-- The wait comes after the steps before it, and before the steps after. -/
  awaits : ∀ p u, prepared settings spec timeout ordinal s = (.ok p, u) →
    ∃ rest, t.trace = u.trace ++ (waitOf settings spec p u).trace ++ rest ∧
      (∀ x ∈ u.trace, x.time ≤ u.now) ∧
      (∀ x ∈ (waitOf settings spec p u).trace,
        u.now ≤ x.time ∧ x.time ≤ (waitOf settings spec p u).stop) ∧
      ∀ x ∈ rest, (waitOf settings spec p u).stop ≤ x.time ∧
        ((waitOf settings spec p u).fault.isSome → ¬ x.note.IsWork)
  /-- There is no wait if the steps before it did not come to an end. -/
  unawaited : ∀ e u, prepared settings spec timeout ordinal s = (.error e, u) →
    ∃ rest, t.trace = u.trace ++ rest ∧ ∀ x ∈ rest, ¬ x.note.IsWork

end

section
variable {settings : Settings} {spec : Spec} {timeout : Option Binary64} {ordinal : Nat}
variable {s t u : Stage} {o : Outcome}

/-- A leg that fails is told from the world, if it is the creation or the start. -/
theorem creation_and_start_of_leg
    (hleg : ∀ leg : Leg, o.history = leg.course spec ++ [.failed] ↔
      ∃ f, FailsIn settings spec timeout ordinal leg (.failure f) s)
    (hfailure : ∀ leg e, FailsIn settings spec timeout ordinal leg e s → ∃ f, e = .failure f) :
    (o.history = [.failed] ↔ s.box.createFault.isSome) ∧
    (o.history = [.created, .failed] ↔ s.box.createFault = none ∧
      (stumble s.box (Act.idOf s.box spec ordinal)).isSome) := by
  -- Every fault of a leg is a failure here, so its kind need not be told.
  have hfails : ∀ leg : Leg, o.history = leg.course spec ++ [.failed] ↔
      ∃ e, FailsIn settings spec timeout ordinal leg e s := by
    refine fun leg => (hleg leg).trans ⟨fun ⟨f, hf⟩ => ⟨_, hf⟩, fun ⟨e, he⟩ => ?_⟩
    obtain ⟨f, rfl⟩ := hfailure leg e he
    exact ⟨f, he⟩
  refine ⟨(hfails .creation).trans ?_, (hfails .start).trans ?_⟩
  · simp only [failsIn_creation, Option.isSome_iff_exists]
  · simp only [failsIn_start, Option.isSome_iff_exists, exists_and_left]

/-- A lifecycle in which no leg fails has the chronicle of a ready container. -/
theorem chronicle_of_ready (hnone : ∀ leg e, ¬ FailsIn settings spec timeout ordinal leg e s)
    (id : Option String) (c : Container) :
    Chronicle settings spec timeout ordinal s
      ⟨true, id, some c, none, course spec ++ [.ready]⟩ := by
  have hleg : ∀ leg : Leg, course spec ++ [.ready] = leg.course spec ++ [.failed] ↔
      ∃ f, FailsIn settings spec timeout ordinal leg (.failure f) s := by
    -- A history that ends with `ready` is that of no leg.
    refine fun leg => ⟨fun h => ?_, fun ⟨f, hf⟩ => absurd hf (hnone leg _)⟩
    have hlast := congrArg List.getLast? h
    simp at hlast
  obtain ⟨hcreation, hstart⟩ := creation_and_start_of_leg
    (o := ⟨true, id, some c, none, course spec ++ [.ready]⟩) hleg
    fun leg e h => absurd h (hnone leg e)
  rw [stumble_isSome] at hstart
  exact {
    shape := .inl rfl
    leg := hleg
    creation := hcreation
    start := hstart
    ready := by simp [Outcome.phase]
    ready_fields := by simp [Outcome.phase]
    failed := by simp [Outcome.phase]
    unwrap_ready := fun _ => ⟨c, rfl, rfl⟩
    unwrap_failed := nofun }

/-- A lifecycle in which a leg fails has the chronicle of that leg. -/
theorem chronicle_of_failed {leg : Leg} {f : Failure} (hs : s.trace = [])
    (hf : FailsIn settings spec timeout ordinal leg (.failure f) s) (id : Option String) :
    Chronicle settings spec timeout ordinal s
      ⟨false, id, none, some f, leg.course spec ++ [.failed]⟩ := by
  -- Courses differ from leg to leg, and no run fails in two legs.
  have hleg : ∀ leg' : Leg, leg.course spec ++ [.failed] = leg'.course spec ++ [.failed] ↔
      ∃ f, FailsIn settings spec timeout ordinal leg' (.failure f) s := by
    refine fun leg' => ⟨fun h => ⟨f, ?_⟩, fun ⟨f', hf'⟩ => ?_⟩
    · rwa [← Leg.course_injective (List.append_cancel_right h)]
    · rw [(failsIn_unique hs hf hf').1]
  obtain ⟨hcreation, hstart⟩ := creation_and_start_of_leg
    (o := ⟨false, id, none, some f, leg.course spec ++ [.failed]⟩) hleg
    fun leg' e h => ⟨f, (failsIn_unique hs h hf).2⟩
  rw [stumble_isSome] at hstart
  exact {
    shape := .inr ⟨_, course_prefix_of_failsIn hf, rfl⟩
    leg := hleg
    creation := hcreation
    start := hstart
    ready := by simp [Outcome.phase]
    ready_fields := by simp [Outcome.phase]
    failed := by simpa [Outcome.phase] using ⟨leg, hf⟩
    unwrap_ready := nofun
    unwrap_failed := fun _ => ⟨f, rfl, rfl⟩ }

/-- The outcome of a lifecycle is ready if no leg fails, and else failed in the leg that does. -/
theorem run_cases (hs : s.trace = []) (hh : s.history = [])
    (h : run settings spec timeout ordinal s = (.ok o, t)) :
    (∃ id c, o = ⟨true, id, some c, none, course spec ++ [.ready]⟩ ∧
      ∀ leg e, ¬ FailsIn settings spec timeout ordinal leg e s) ∨
    (∃ leg f id, o = ⟨false, id, none, some f, leg.course spec ++ [.failed]⟩ ∧
      FailsIn settings spec timeout ordinal leg (.failure f) s) := by
  cases hup : bringUp settings spec timeout ordinal s with
  | mk r u =>
    cases r with
    | ok c =>
      obtain ⟨t', hrun, -⟩ := run_of_ok hup
      rw [h] at hrun
      cases hrun
      have hhistory := (bringUp_watched hs hup).onward.history
      -- A leg that failed would have ended the way up with a fault.
      refine .inl ⟨u.id, c, by rw [hhistory, hh]; rfl, fun leg e hf => ?_⟩
      obtain ⟨v, hup', -⟩ := history_of_failsIn hs hf
      rw [hup] at hup'
      cases hup'
    | error e =>
      obtain ⟨leg, hf⟩ := exists_failsIn hup
      obtain ⟨v, hup', hhistory⟩ := history_of_failsIn hs hf
      rw [hup] at hup'
      cases hup'
      obtain ⟨r, t', phases, hrun, -, ho, -⟩ := run_of_error hup
      rw [h] at hrun
      cases hrun
      obtain ⟨f, rfl, rfl⟩ := ho o rfl
      refine .inr ⟨leg, f, u.id, ?_, hf⟩
      rw [hhistory, hh]
      rfl

/-- Nothing is done with a container before it was looked at, and closing does no work. -/
theorem inspectsFirst_of_closes {phases : List Phase} {ended : Option String} (hs : s.trace = [])
    (hid : s.id = none)
    (hcloses : (bringUp settings spec timeout ordinal s).2.Onward (Note.IsClosing ended) phases t) :
    (∀ id, t.id = some id → t.trace.InspectsFirst id) ∧
      (t.id = none → ∀ x ∈ t.trace, ¬ x.note.IsWork) := by
  obtain ⟨closing, hclosing, hP⟩ := hcloses.trace
  have hidle : ∀ x ∈ closing, ¬ x.note.IsWork := fun x hx => (hP x hx).2.2.not_isWork
  rw [hclosing, hcloses.id]
  -- Either nothing has been created and noted, or the container has the id of the stage.
  rcases bringUp_rise hs with ⟨e, -, hup⟩ | ⟨-, phases', hrise⟩
  · rw [hup, hid, hs]
    exact ⟨nofun, fun _ => hidle⟩
  · rw [hrise.onward.id]
    refine ⟨fun id hsome => ?_, nofun⟩
    cases hsome
    exact hrise.inspectsFirst.append fun x hx hwork => absurd hwork (hidle x hx)

/-- The notes of a wait stand between those of the steps before it and all others. -/
theorem awaits_of_closes {phases : List Phase} {ended : Option String} (hs : s.trace = [])
    (hcloses : (bringUp settings spec timeout ordinal s).2.Onward (Note.IsClosing ended) phases t)
    {p : Container × Deadline} (hprepared : prepared settings spec timeout ordinal s = (.ok p, u)) :
    ∃ rest, t.trace = u.trace ++ (waitOf settings spec p u).trace ++ rest ∧
      (∀ x ∈ u.trace, x.time ≤ u.now) ∧
      (∀ x ∈ (waitOf settings spec p u).trace,
        u.now ≤ x.time ∧ x.time ≤ (waitOf settings spec p u).stop) ∧
      ∀ x ∈ rest, (waitOf settings spec p u).stop ≤ x.time ∧
        ((waitOf settings spec p u).fault.isSome → ¬ x.note.IsWork) := by
  obtain ⟨closing, hclosing, hP⟩ := hcloses.trace
  obtain ⟨before, hbefore, hPbefore⟩ := (prepared_watched hs hprepared).onward.trace
  obtain ⟨rest, hrest, hnow, htimes, hfault⟩ := bringUp_of_prepared hprepared
  have hasks := Readiness.waitAll_asks ⟨p.1, u.box, u.world, settings⟩ spec.waitFor p.2 u.now
  -- After the wait come the steps after it, if it ended well, and then the closing.
  refine ⟨rest ++ closing, ?_, ?_, ?_, ?_⟩
  · rw [hclosing, hrest, List.append_assoc]
  · intro x hx
    have hx' : x ∈ before := by
      rw [hbefore] at hx
      simpa [hs] using hx
    exact (hPbefore x hx').2.1
  · exact fun x hx => ⟨(hasks.notes x hx).1, (hasks.notes x hx).2.1⟩
  · intro x hx
    rcases List.mem_append.mp hx with hx | hx
    · refine ⟨htimes x hx, fun hsome => ?_⟩
      rw [hfault hsome] at hx
      cases hx
    · exact ⟨Int.le_trans hnow (hP x hx).1, fun _ => (hP x hx).2.2.not_isWork⟩

/-- A run from the start makes its moves in sequence. -/
theorem run_sequence (hs : s.trace = []) (hid : s.id = none) :
    Sequence settings spec timeout ordinal s (run settings spec timeout ordinal s).2 := by
  obtain ⟨ended, phases, hends⟩ := run_closes settings spec timeout ordinal s
  have hcloses := hends.onward
  obtain ⟨hfirst, hidle⟩ := inspectsFirst_of_closes hs hid hcloses
  refine ⟨hfirst, hidle, fun p u => awaits_of_closes hs hcloses, fun e u hprepared => ?_⟩
  obtain ⟨closing, hclosing, hP⟩ := hcloses.trace
  rw [bringUp_of_evaluated (evaluated_of_prepared hprepared)] at hclosing
  exact ⟨closing, hclosing, fun x hx => (hP x hx).2.2.not_isWork⟩

/-- The outcome of every lifecycle that starts afresh tells of it, and so does the trace. -/
theorem run_tells {world : World} {box : World.Box} {now : Int}
    (h : run settings spec timeout ordinal (.ready world box now) = (.ok o, t)) :
    Chronicle settings spec timeout ordinal (.ready world box now) o ∧
      Sequence settings spec timeout ordinal (.ready world box now) t := by
  refine ⟨?_, ?_⟩
  · rcases run_cases rfl rfl h with ⟨id, c, rfl, hnone⟩ | ⟨leg, f, id, rfl, hf⟩
    · exact chronicle_of_ready hnone id c
    · exact chronicle_of_failed rfl hf id
  · have hsequence : Sequence settings spec timeout ordinal (.ready world box now)
        (run settings spec timeout ordinal (.ready world box now)).2 := run_sequence rfl rfl
    rw [h] at hsequence
    exact hsequence

/-- A spec with a command that has to succeed before the container is ready. -/
def migrating : Spec :=
  { Spec.ofImage "gitea" "1.22" with execBeforeReady := [.step (.command (.checked ["migrate"]))] }

/-- A box in which that command exits with one. -/
def refusing : World.Box :=
  { World.Box.quiet with execs := [.exiting ["migrate"] 1 0 none] }

/-- A migration that is refused ends the lifecycle before the container is ready. -/
theorem run_tells_of_migration :
    ∃ o t, run .usual migrating none 1 (.ready .quiet refusing 0) = (.ok o, t) ∧
      o.history = [.created, .started, .preReadyExec, .failed] ∧
      Chronicle .usual migrating none 1 (.ready .quiet refusing 0) o ∧
      Sequence .usual migrating none 1 (.ready .quiet refusing 0) t := by
  have hhistory : (run .usual migrating none 1 (.ready .quiet refusing 0)).1.toOption.map
      Outcome.history = some [.created, .started, .preReadyExec, .failed] := by decide +kernel
  cases hrun : run .usual migrating none 1 (.ready .quiet refusing 0) with
  | mk r t =>
    rw [hrun] at hhistory
    cases r with
    | error e => cases hhistory
    | ok o =>
      obtain ⟨hchronicle, hsequence⟩ := run_tells hrun
      exact ⟨o, t, rfl, Option.some.inj hhistory, hchronicle, hsequence⟩

end

end Slipway.Lifecycle
