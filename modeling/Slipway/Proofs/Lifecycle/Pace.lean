import Slipway.Proofs.Lifecycle.Closing
import Slipway.Proofs.Readiness.Punctual
import Slipway.Proofs.World.Pace

/-!
# `Slipway.Proofs.Lifecycle.Pace`: how fast a lifecycle gets on

All that follows the start of a container knows one deadline. So it keeps a pace (`Act.Paces`) whose
limit is that of the deadline: the deadline itself and the least time that a request waits.

A wait may overshoot once beyond the limit, and needs that as slack. A command goes before the wait
for its own conditions and has an overshoot in hand for it, so that steps need none, however many
they are (`Injection.runAll_paces`). What is left is the wait of the lifecycle itself
(`afterStart_paces`). -/

set_option autoImplicit false

namespace Slipway

open Slipway.World (Act Note Stage)

/-- The moment after which nothing that knows the deadline waits or sleeps, but for one overshoot: a
request that is made in time may go beyond the deadline by the least time that requests wait. -/
def Deadline.limit (d : Deadline) : Int := d.expiry + Readiness.Http.leastTimeout

/-! ### Steps -/

namespace Injection

open Slipway.World.Act (Paces)

section
variable {t : Target} {d : Deadline} (c : Command)

/-- A wait takes time up to the limit, and after that one overshoot at most. -/
theorem await_paces (t : Target) (conditions : List Condition) (d : Deadline) :
    Paces d.limit Clock.overshoot (await t conditions d) := by
  intro s
  let scene : Readiness.Scene := ⟨t.container, s.box, s.world, t.settings⟩
  have hasks := Readiness.waitAll_asks scene conditions d s.now
  have hpunctual : (Readiness.waitAll scene conditions d s.now).Punctual d s.now :=
    Readiness.waitForAll_punctual (Readiness.waits_ask scene conditions)
      (Readiness.waits_punctual scene conditions) d s.now
  -- A wait asks questions only, and a command is none.
  have hcommands : World.Trace.commands (Readiness.waitAll scene conditions d s.now).trace =
      [] := by
    refine World.Trace.commands_eq_nil fun x hx id argv user workdir hnote => ?_
    have hquestion := (hasks.notes x hx).2.2
    rw [hnote] at hquestion
    exact hquestion
  exact ⟨_, .of_idle rfl hcommands rfl (by decide) hpunctual.stop_le⟩

/-- Settling keeps to the deadline, but for an overshoot. -/
theorem settle_paces (hd : t.deadline = some d) : Paces d.limit Clock.overshoot (settle t c) := by
  unfold settle
  split
  · exact (Act.paces_give ()).mono (by decide)
  · rw [hd]
    exact .of_stage fun s => await_paces t c.readiness d

/-- A free command takes the time that the box takes for it. -/
theorem runFreely_paces (limit : Int) : Paces limit (-Clock.overshoot) (runFreely t c) := by
  rw [runFreely_eq]
  exact (Act.paces_exec _ _ _ _).attempt.then fun r =>
    forgive_composes (Act.paces_composes limit) Act.paces_line fun e _ => Act.paces_fail e

/-- A sleep after a command ends with the deadline. -/
theorem sleepAfter_paces (hd : t.deadline = some d) (millis : Nat) :
    Paces d.limit 0 (sleepAfter t c millis) := by
  unfold sleepAfter
  rw [hd]
  refine (Act.paces_ofExcept _).then fun length => .of_stage fun s => Paces.then ?_ fun _ => ?_
  · intro s
    have hsleep := d.sleep_le s.now length
    have hover : Clock.overshoot ≤ Readiness.Http.leastTimeout := by decide
    -- A pause is cut at the deadline, and the overshoot of the sleep stays within the limit.
    have hlimit : d.limit = d.expiry + Readiness.Http.leastTimeout := rfl
    have hnow : d.sleep s.now length ≤ max s.now d.limit + 0 := by omega
    exact ⟨[], .of_idle (List.append_nil _).symm rfl rfl (Int.le_refl 0) hnow⟩
  · split
    · exact Act.paces_fail _
    · exact Act.paces_give ()

/-- A checked command takes the time that the box takes for it, and its pause. -/
theorem runChecked_paces (hd : t.deadline = some d) (completion : Completion) :
    Paces d.limit (-Clock.overshoot) (runChecked t c completion) := by
  rw [runChecked_eq]
  exact (Act.paces_exec _ _ _ _).then fun r =>
    hold_composes (Act.paces_composes d.limit) (Act.paces_failIf _) fun millis _ =>
      sleepAfter_paces c hd millis

/-- A command and the wait after it need no slack: the command is one overshoot ahead. -/
theorem exec_paces (hd : t.deadline = some d) : Paces d.limit 0 (exec t c) := by
  have hafter : ∀ r : ExecResult,
      Paces d.limit Clock.overshoot (settle t c >>= fun _ => Act.give r) :=
    fun r => (settle_paces c hd).then fun _ => Act.paces_give r
  have hover : (0 : Int) ≤ Clock.overshoot := by decide
  unfold exec
  refine (Act.paces_line _ _).then fun _ => ?_
  cases c.completion with
  | none => exact (runFreely_paces c d.limit).bind hafter hover
  | some completion => exact (runChecked_paces c hd completion).bind hafter hover

/-- Steps take the time of their commands, and an overshoot for each. -/
theorem runSteps_paces (hd : t.deadline = some d) (steps : List Step) :
    Paces d.limit 0 (runSteps t steps) :=
  runSteps_composes (Act.paces_composes d.limit) (fun c _ => exec_paces c hd) fun p =>
    (Act.paces_line _ _).then fun _ => Act.paces_copy t.container.id p

/-- Steps of any number keep the pace without slack. -/
theorem runAll_paces (hd : t.deadline = some d) (sources : List Source) :
    Paces d.limit 0 (runAll t sources) :=
  runAll_composes (Act.paces_composes d.limit) fun _ _ =>
    (Act.paces_ofExcept _).then (runSteps_paces hd)

end

end Injection

/-! ### The way on from a started container -/

namespace Lifecycle

open Slipway.World.Act (Paces)

section
variable (settings : Settings) (spec : Spec) (timeout : Option Binary64) (ordinal : Nat)

/-- The way from a started container to one that has been brought up. -/
def afterStart (p : Container × Deadline) : Act Container := do
  runPhase spec .preReadyExec (targetOf settings p) spec.execBeforeReady
  enter spec .evaluating
  Injection.await (targetOf settings p) spec.waitFor p.2
  runPhase spec .postStartExec (targetOf settings p) spec.execAfterStart
  Act.give p.1

/-- Bringing up is starting and what comes after the start. -/
theorem bringUp_eq_afterStart :
    bringUp settings spec timeout ordinal =
      started settings spec timeout ordinal >>= afterStart settings spec := by
  simp only [bringUp_eq, evaluated, prepared, Act.give_eq_pure, bind_assoc, pure_bind]
  rfl

/-- Entering a phase takes no time. -/
theorem enter_paces (limit : Int) (p : Phase) : Paces limit 0 (enter spec p) := by
  have henter : Paces limit 0 (Act.enter p) :=
    Act.paces_of_still (fun _ => rfl) (fun _ => rfl) fun _ => rfl
  exact henter.then fun _ => .of_stage fun _ => Act.paces_line _ _

/-- A phase takes the time of its commands. -/
theorem runPhase_paces (phase : Phase) (p : Container × Deadline) (sources : List Source) :
    Paces p.2.limit 0 (runPhase spec phase (targetOf settings p) sources) :=
  runPhase_composes (Act.paces_composes p.2.limit) (enter_paces spec p.2.limit phase)
    (Injection.runAll_paces rfl sources)

/-- All that follows the start keeps the pace, and only the wait of the lifecycle needs some slack.
-/
theorem afterStart_paces (p : Container × Deadline) :
    Paces p.2.limit Clock.overshoot (afterStart settings spec p) := by
  have hover : (0 : Int) ≤ Clock.overshoot := by decide
  refine (runPhase_paces settings spec .preReadyExec p _).before (fun _ => ?_) hover
  refine (enter_paces spec p.2.limit .evaluating).before (fun _ => ?_) hover
  refine (Injection.await_paces _ _ _).then fun _ => ?_
  exact (runPhase_paces settings spec .postStartExec p _).then fun _ => Act.paces_give p.1

end

end Lifecycle
end Slipway
