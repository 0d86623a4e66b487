import Slipway.Proofs.Injection.Checked
import Slipway.Proofs.Lifecycle.Chronicle
import Slipway.Proofs.Readiness.Conjunction

/-!
# `Slipway.Proofs.Lifecycle.Setup`: lifecycles that fail while they set a container up

Two ways in which the setup of a container fails. A factory among the steps before it is ready makes
nothing of the container, or a command after it is ready is refused. `run_unmade` and `run_refused`
follow each through a whole lifecycle: what has been done to the container by then, the phases, and
the failure that is the outcome.

Both end with a failure, and so with the removal of the container if that is set. The outcome is the
failure unless an interrupt comes from that removal (`EndsFailed`).

That a lifecycle has come to a phase is told by its history: `started_of_history` and
`postStartExec_mem_history_iff` say which part of the way up has ended well then.
-/

set_option autoImplicit false

namespace Slipway

open Slipway.World (Act Note Stage)

/-- Whether a note is of a file that is written into a container. -/
def World.Note.IsCopy : World.Note → Prop
  | .event _ (.copy _ _) => True
  | .stored _ _ _ => True
  | _ => False

namespace Lifecycle

section
variable {settings : Settings} {spec : Spec} {timeout : Option Binary64} {ordinal : Nat}
variable {s t u : Stage} {p : Container × Deadline} {e : Fault}

/-! ### How far a history shows a lifecycle to have come -/

/-- After bringing up, a lifecycle enters no phase but the last. -/
theorem run_history (settings : Settings) (spec : Spec) (timeout : Option Binary64) (ordinal : Nat)
    (s : Stage) :
    ∃ phases, phases ⊆ [.ready, .failed] ∧ (run settings spec timeout ordinal s).2.history =
      (bringUp settings spec timeout ordinal s).2.history ++ phases := by
  cases h : bringUp settings spec timeout ordinal s with
  | mk r u =>
    cases r with
    | ok c =>
      obtain ⟨t, hrun, hcloses⟩ := run_of_ok h
      rw [hrun]
      exact ⟨[.ready], by simp, hcloses.onward.history⟩
    | error e =>
      -- A failure is entered as a phase; a fault of another kind is not.
      by_cases he : ∃ f, e = .failure f
      · obtain ⟨f, rfl⟩ := he
        obtain ⟨r, t, hrun, hcloses, -⟩ := run_of_failure h
        rw [hrun]
        exact ⟨[.failed], by simp, hcloses.onward.history⟩
      · obtain ⟨e', t, hrun, hcloses, -⟩ := run_of_other (fun f hf => he ⟨f, hf⟩) h
        rw [hrun]
        exact ⟨[], by simp, hcloses.onward.history⟩

/-- A phase of the way up that is in the history has been entered before a leg failed, if one has.
-/
theorem mem_course_of_history (hs : s.trace = []) (hh : s.history = []) {phase : Phase}
    (hphase : phase ∉ [.ready, .failed])
    (h : phase ∈ (run settings spec timeout ordinal s).2.history)
    (hup : bringUp settings spec timeout ordinal s = (.error e, t)) :
    ∃ leg, FailsIn settings spec timeout ordinal leg e s ∧ phase ∈ leg.course spec := by
  obtain ⟨phases, hsub, hhistory⟩ := run_history settings spec timeout ordinal s
  obtain ⟨leg, hf⟩ := exists_failsIn hup
  obtain ⟨t', hup', hcourse⟩ := history_of_failsIn hs hf
  rw [hup] at hup'
  cases hup'
  rw [hhistory, hup, List.mem_append] at h
  refine ⟨leg, hf, ?_⟩
  -- The phase is none of the last ones, so it was entered on the way up.
  cases h with
  | inl hmem =>
    rw [hcourse, hh] at hmem
    exact hmem
  | inr hmem => exact absurd (hsub hmem) hphase

/-- If a history has the phase `started`, the container has been started. -/
theorem started_of_history (hs : s.trace = []) (hh : s.history = [])
    (h : .started ∈ (run settings spec timeout ordinal s).2.history) :
    ∃ p u, started settings spec timeout ordinal s = (.ok p, u) := by
  cases hstarted : started settings spec timeout ordinal s with
  | mk r u =>
    cases r with
    | ok p => exact ⟨p, u, rfl⟩
    | error e =>
      obtain ⟨leg, hf, hmem⟩ := mem_course_of_history hs hh (by decide) h
        (bringUp_of_evaluated (evaluated_of_prepared (prepared_of_started hstarted)))
      -- A leg that is entered after the start has a container that was started.
      cases leg with
      | creation => cases hmem
      | start => simp [Leg.course] at hmem
      | preReady =>
        obtain ⟨p, v, hok, -⟩ := hf
        rw [hstarted] at hok
        cases hok
      | evaluation =>
        obtain ⟨p, v, hok, -⟩ := hf
        rw [prepared_of_started hstarted] at hok
        cases hok
      | postStart =>
        obtain ⟨p, v, hok, -⟩ := hf
        rw [evaluated_of_prepared (prepared_of_started hstarted)] at hok
        cases hok

/-- A history has the phase after the container is ready iff the wait for it has ended well and
there is something to run then. -/
theorem postStartExec_mem_history_iff (hs : s.trace = []) (hh : s.history = []) :
    .postStartExec ∈ (run settings spec timeout ordinal s).2.history ↔
      spec.execAfterStart ≠ [] ∧ ∃ p u, evaluated settings spec timeout ordinal s = (.ok p, u) := by
  obtain ⟨phases, hsub, hhistory⟩ := run_history settings spec timeout ordinal s
  have hphases : Phase.postStartExec ∉ phases := by
    intro h
    have hclosing := hsub h
    simp at hclosing
  cases hevaluated : evaluated settings spec timeout ordinal s with
  | mk r u =>
    cases r with
    | ok p =>
      have hwatched := evaluated_watched hs hevaluated
      have hphase := runPhase_onward spec .postStartExec (targetOf settings p) spec.execAfterStart u
      rw [hhistory, bringUp_eq, Act.bind_of_ok hevaluated, Act.snd_bind_give, hphase.history,
        hwatched.onward.history, hh]
      cases hafter : spec.execAfterStart with
      | nil => simp [Leg.course, optional, hphases]
      | cons source rest => simp [optional]
    | error e =>
      constructor
      · intro h
        obtain ⟨leg, hf, hmem⟩ :=
          mem_course_of_history hs hh (by decide) h (bringUp_of_evaluated hevaluated)
        -- Only the last leg comes after that phase, and its container has been waited for.
        cases leg with
        | creation => cases hmem
        | start => simp [Leg.course] at hmem
        | preReady => simp [Leg.course] at hmem
        | evaluation => simp [Leg.course, optional] at hmem
        | postStart =>
          obtain ⟨p, v, hok, -⟩ := hf
          rw [hevaluated] at hok
          cases hok
      · rintro ⟨_, p, v, hok⟩
        cases hok

/-- A container has been waited for if all of several conditions end well against a child of the
deadline. -/
theorem evaluated_of_members {c c' : Condition} {rest : List Condition}
    (hconditions : spec.waitFor = c :: c' :: rest)
    (hprepared : prepared settings spec timeout ordinal s = (.ok p, t))
    (hwell : ∀ m ∈ Readiness.waits ⟨p.1, t.box, t.world, settings⟩ spec.waitFor,
      (m (p.2.child t.now) t.now).fault = none) :
    ∃ u, evaluated settings spec timeout ordinal s = (.ok p, u) := by
  refine ⟨_, evaluated_of_wait hprepared ?_⟩
  rw [hconditions] at hwell ⊢
  exact Readiness.Group.wait_fault_eq_none hwell

/-! ### Ends with a failure -/

/-- A lifecycle has ended with a failure after some phases. Only an interrupt that comes from the
removal of the container takes the place of the outcome, and it always does. -/
structure EndsFailed (settings : Settings) (box : World.Box) (id : String) (f : Failure)
    (phases : List Phase) (ended : Finished) : Prop where
  history : ended.2.history = phases ++ [.failed]
  outcome : ended.1 = .ok ⟨false, some id, none, some f, phases ++ [.failed]⟩ ∨
    ∃ e, ended.1 = .error e ∧ settings.removeOnFailure = true ∧ box.Interrupts e
  interrupted : settings.removeOnFailure = true → id ≠ "" → ∀ e, box.Interrupts e →
    ended.1 = .error e

/-- An interrupt that comes while a container that failed is removed is passed on. -/
theorem run_of_interrupted {f : Failure} {id : String}
    (hup : bringUp settings spec timeout ordinal s = (.error (.failure f), u))
    (hset : settings.removeOnFailure = true) (hid : u.id = some id) (hne : id ≠ "")
    (hinterrupts : u.box.Interrupts e) : (run settings spec timeout ordinal s).1 = .error e := by
  obtain ⟨w, henter, hbox, hfailed⟩ := enter_closes spec .failed u
  let v := w.note (.line .error (spec.imageRef ++ " failed: " ++ f.message))
  have hline : Act.line .error (spec.imageRef ++ " failed: " ++ f.message) w = (.ok (), v) := rfl
  have hv : v.id = some id := hfailed.onward.id.trans hid
  have hfault : v.box.removeFault = some e :=
    (congrArg World.Box.removeFault hbox).trans hinterrupts.1
  -- The interrupt comes from the removal, after the failure has been logged.
  have hdiscard : discardCreated v = (.error e, v.note (.event id .remove)) := by
    have hlook : Act.stage v = (.ok v, v) := rfl
    rw [discardCreated, Act.bind_of_ok hlook, hv]
    simp only [if_neg hne]
    rw [discard_eq, hfault]
    simp only [hinterrupts.2, if_true]
  have hrun : run settings spec timeout ordinal s = (discardCreated >>= fun _ =>
      Act.stage >>= fun s => Act.give ⟨false, s.id, none, some f, s.history⟩ : Act Outcome) v := by
    rw [run_eq_close hup, close, hset]
    exact (Act.bind_of_ok henter).trans (Act.bind_of_ok hline)
  rw [hrun, Act.bind_of_error hdiscard]

/-- A way up that ends with a failure ends the lifecycle with it. Of notes there are then only those
of the closing. -/
theorem run_endsFailed {f : Failure} {id : String} {phases : List Phase}
    (hup : bringUp settings spec timeout ordinal s = (.error (.failure f), u))
    (hid : u.id = some id) (hhistory : u.history = phases)
    (hremoval : u.box.removeFault = s.box.removeFault) :
    EndsFailed settings s.box id f phases (run settings spec timeout ordinal s) ∧
      ∃ ended,
        u.Onward (Note.IsClosing ended) [.failed] (run settings spec timeout ordinal s).2 := by
  -- The way up leaves the removal as it was.
  have hinterrupts : ∀ e, u.box.Interrupts e ↔ s.box.Interrupts e := by
    intro e
    unfold World.Box.Interrupts
    rw [hremoval]
  have hinterrupted : settings.removeOnFailure = true → id ≠ "" → ∀ e, s.box.Interrupts e →
      (run settings spec timeout ordinal s).1 = .error e := by
    intro hset hne e he
    exact run_of_interrupted hup hset hid hne ((hinterrupts e).mpr he)
  obtain ⟨r, t, hrun, hcloses, hok, herror⟩ := run_of_failure hup
  rw [hrun] at hinterrupted ⊢
  refine ⟨⟨?_, ?_, hinterrupted⟩, _, hcloses.onward⟩
  · rw [← hhistory]
    exact hcloses.onward.history
  · cases r with
    | ok o =>
      rw [← hhistory, ← hid]
      exact .inl (congrArg Except.ok (hok o rfl))
    | error e =>
      obtain ⟨hset, hinterrupt⟩ := herror e rfl
      exact .inr ⟨e, rfl, hset, (hinterrupts e).mp hinterrupt⟩

/-- A phase ends with what its sources are refused with: there are some, so it was entered. -/
theorem runPhase_of_error {phase : Phase} {target : Injection.Target} {sources : List Source}
    (henter : enter spec phase s = (.ok (), t))
    (hrun : Injection.runAll target sources t = (.error e, u)) :
    runPhase spec phase target sources s = (.error e, u) := by
  cases sources with
  | nil => cases hrun
  | cons source rest => exact (Act.bind_of_ok henter).trans (Act.bind_of_error hrun)

/-! ### A factory that makes nothing of the container -/

/-- If the only source before a container is ready is a factory that fails, the way up ends there,
and that adds one line. -/
theorem bringUp_unmade {make : Factory} (hsources : spec.execBeforeReady = [.factory make])
    (hstarted : started settings spec timeout ordinal s = (.ok p, t))
    (hmake : make p.1 = .error e) :
    ∃ u, bringUp settings spec timeout ordinal s = (.error e, u) ∧ u.box = t.box ∧
      ∀ P : Note → Prop, (∀ text, P (.line .info text)) → t.Onward P [.preReadyExec] u := by
  obtain ⟨u, henter, hbox, -, honward⟩ := enter_eq spec .preReadyExec t
  -- The factory is called before any step, so nothing is done.
  have hrun : ∀ v, Injection.runAll (targetOf settings p) [.factory make] v = (.error e, v) := by
    intro v
    show (Act.ofExcept (make p.1) >>= _ : Act (List ExecResult)) v = _
    rw [hmake]
    rfl
  have hphase : runPhase spec .preReadyExec (targetOf settings p) spec.execBeforeReady t =
      (.error e, u) := by
    rw [hsources]
    exact runPhase_of_error henter (hrun u)
  exact ⟨u, bringUp_of_evaluated (evaluated_of_prepared
    ((Act.bind_of_ok hstarted).trans (Act.bind_of_error hphase))), hbox, honward⟩

/-- A spec without files whose only source before it is ready fails for the container ends with that
failure, and no file has been copied. -/
theorem run_unmade {make : Factory} {f : Failure} {world : World} {box : World.Box} {now : Int}
    (hfiles : spec.copyTo = []) (hsources : spec.execBeforeReady = [.factory make])
    (hmake : ∀ c : Container, c.ports = box.portTable spec.exposedPorts →
      make c = .error (.failure f))
    (hreached : .started ∈ (run settings spec timeout ordinal (.ready world box now)).2.history) :
    EndsFailed settings box (Act.idOf box spec ordinal) f [.created, .started, .preReadyExec]
        (run settings spec timeout ordinal (.ready world box now)) ∧
      ∀ x ∈ (run settings spec timeout ordinal (.ready world box now)).2.trace,
        ¬ x.note.IsCopy := by
  obtain ⟨p, t, hstarted⟩ := started_of_history rfl rfl hreached
  obtain ⟨hbox, -, hports⟩ := box_of_started hstarted
  obtain ⟨u, hup, hbox', honward⟩ := bringUp_unmade hsources hstarted (hmake p.1 hports)
  -- Neither the opening nor the phase copies anything.
  have hopens : Opens (fun n => ¬ n.IsCopy) spec (Act.idOf box spec ordinal) := {
    create := id
    stored := by simp [hfiles]
    start := id
    inspect := id
    line := fun _ => id }
  have hrise := (started_onward hopens hstarted).trans (honward _ fun _ => id)
  obtain ⟨hends, ended, hclosing⟩ := run_endsFailed hup hrise.id hrise.history
    (by rw [hbox', hbox])
  refine ⟨hends, fun x hx => ?_⟩
  have hnone : ∀ n : Note, n.IsClosing ended → ¬ n.IsCopy := by
    intro n hn
    unfold Note.IsClosing at hn
    unfold Note.IsCopy
    split at hn <;> simp_all
  have hwhole := hrise.trans (hclosing.mono hnone)
  obtain ⟨more, hmore, hnotes⟩ := hwhole.trace
  rw [hmore] at hx
  exact (hnotes x hx).2.2

/-! ### A command that is refused -/

/-- Without sources before a container is ready, nothing has been run when the wait for it ends
well, and its box is the one that it was created in. -/
theorem evaluated_of_no_sources (hsources : spec.execBeforeReady = [])
    (h : evaluated settings spec timeout ordinal s = (.ok p, t)) :
    t.box = s.box ∧ t.trace.commands = s.trace.commands := by
  obtain ⟨v, hprepared, hawait⟩ := evaluated_eq_ok h
  obtain ⟨q, u, hstarted, hrest⟩ := Act.bind_eq_ok.mp hprepared
  obtain ⟨w, henter, hbox, -, honward⟩ := enter_eq spec .evaluating u
  have hphase : runPhase spec .preReadyExec (targetOf settings q) spec.execBeforeReady u =
      (.ok (), u) := by
    rw [hsources]
    rfl
  rw [Act.bind_of_ok hphase, Act.bind_of_ok henter] at hrest
  cases hrest
  -- Neither the opening nor the lines nor the wait run a command.
  have hwait := Injection.await_goes (targetOf settings p) spec.waitFor p.2 v
  rw [hawait] at hwait
  refine ⟨?_, ?_⟩
  · have hsame : t.box = v.box := congrArg (fun r => r.2.box) hawait.symm
    rw [hsame, hbox, started_box hstarted]
  · rw [hwait.commands_eq fun _ _ _ _ => id,
      (honward (Note.IsClosing none) fun _ => trivial).commands_eq fun _ _ _ _ => id,
      (started_opening hstarted).commands_eq fun _ _ _ _ => id]

/-- A spec without sources before it is ready, and with commands after that have to exit with zero,
ends with the failure of the first that does not. The commands up to it have been run, each once,
and no other. -/
theorem run_refused {commands : List (List String)} {k : Nat} {r : ExecResult} {world : World}
    {box : World.Box} {now : Int} (hbefore : spec.execBeforeReady = [])
    (hafter : spec.execAfterStart = Injection.checkedSources commands)
    (hreached :
      .postStartExec ∈ (run settings spec timeout ordinal (.ready world box now)).2.history)
    (hrefuses : box.Refuses commands k r) :
    (run settings spec timeout ordinal (.ready world box now)).2.trace.commands =
      commands.take (k + 1) ∧
      ∃ argv, commands[k]? = some argv ∧
        EndsFailed settings box (Act.idOf box spec ordinal)
          (.execFailed argv r.exitCode r.stdout r.stderr none)
          [.created, .started, .evaluating, .postStartExec]
          (run settings spec timeout ordinal (.ready world box now)) := by
  obtain ⟨-, p, t, hevaluated⟩ := (postStartExec_mem_history_iff rfl rfl).mp hreached
  obtain ⟨hbox, hnone⟩ := evaluated_of_no_sources hbefore hevaluated
  obtain ⟨-, hid⟩ := id_of_evaluated hevaluated
  have hwatched := evaluated_watched rfl hevaluated
  obtain ⟨v, henter, hv, -, honward⟩ := enter_eq spec .postStartExec t
  have hline := honward (Note.IsClosing none) fun _ => trivial
  have hexecs : v.box.execs = box.execs := by rw [hv, hbox]; rfl
  obtain ⟨u, argv, hargv, hrun, hcommands, hremoval⟩ := Injection.runAll_refused
    (t := targetOf settings p) (hrefuses.congr hexecs)
  -- The refusal comes from the last phase, and the phases before it are done.
  have hup : bringUp settings spec timeout ordinal (.ready world box now) =
      (.error (.failure (.execFailed argv r.exitCode r.stdout r.stderr none)), u) := by
    rw [bringUp_eq]
    refine (Act.bind_of_ok hevaluated).trans (Act.bind_of_error (runPhase_of_error henter ?_))
    rw [hafter]
    exact hrun
  have hgoes := Injection.runAll_goes (targetOf settings p) (Injection.checkedSources commands) v
  rw [hrun] at hgoes
  have hrise := (hwatched.deed (honward (Note.IsDeed p.1.id) fun _ => trivial)).deed hgoes
  have hhistory : u.history = [.created, .started, .evaluating, .postStartExec] := by
    rw [hrise.onward.history, Leg.course, hbefore]
    rfl
  have hsame : u.id = some (Act.idOf box spec ordinal) := hrise.onward.id.trans (congrArg some hid)
  obtain ⟨hends, ended, hclosing⟩ :=
    run_endsFailed hup hsame hhistory (by rw [hremoval, hv, hbox])
  refine ⟨?_, argv, hargv, hends⟩
  -- Neither entering the phase nor closing runs a command.
  rw [hclosing.commands_eq fun _ _ _ _ => id, hcommands, hline.commands_eq fun _ _ _ _ => id, hnone]
  rfl

end

end Lifecycle
end Slipway
