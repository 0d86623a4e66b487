import Slipway.Injection
import Slipway.Proofs.Readiness.Asking
import Slipway.Proofs.World.Act

/-!
# `Slipway.Proofs.Injection`: what steps do to a container

Steps are run against one container, and they neither create nor start nor remove any. `Note.IsDeed`
says what is noted of them: commands and copies in that container, and what the waits between them
ask. `runAll_goes` states it for every list of sources, through one lemma for each thing that a step
does.

How steps are put together from their parts is said once, for every relation that acts in a row keep
(`Act.Relates`). It is between the steps against a target and those against the target with another
deadline. `exec_relates`, `runSteps_relates` and `runAll_relates` take it from the calls and waits
up to lists of steps and of sources, which go by induction. A property that acts in a row keep is a
relation of this kind (`Act.Composes.relates`), so `exec_composes`, `runSteps_composes` and
`runAll_composes` follow. -/

set_option autoImplicit false

namespace Slipway

/-- Whether a note is of the running of steps in a container. -/
def World.Note.IsDeed (id : String) : World.Note → Prop
  | .event i (.exec _ _ _) => i = id
  | .event i (.copy _ _) => i = id
  | .stored i _ _ => i = id
  | .probe i _ => i = id
  | .request _ => True
  | .line _ _ => True
  | .caution _ => True
  | _ => False

/-- What is asked of a container is also done with it. -/
theorem World.Note.IsQuestion.isDeed {id : String} {n : World.Note} (h : n.IsQuestion id) :
    n.IsDeed id := by
  cases n <;> first | exact h | trivial

namespace Injection

open Slipway.World (Act Note Stage)
open Slipway.World.Act (Goes)

/-! ### Exit codes in messages -/

/-- A result whose exit code can be written down is told in full. -/
theorem untold_of_isTellable {r : ExecResult} (h : r.isTellable = true) : untold r = none := by
  rw [untold, if_pos h]

/-- Under an exit code a result is the wanted one or a failure, as long as its own can be told. -/
theorem judge_exitCode {r : ExecResult} (h : r.isTellable = true) (c : Command) (n : Int) :
    judge c r (.exitCode n) = if r.exitCode = some n then none else some (execFailed c r none) := by
  rw [judge, untold_of_isTellable h]
  rfl

/-! ### Steps from their parts -/

/-- What comes after a command that may fail as it likes. That an exit code cannot be told does not
come about, since no command gives such a one back. -/
def forgive (t : Target) (c : Command) : Except Fault ExecResult → Act ExecResult
  | .ok r => do
    match r.exitCode with
    | none => pure ()
    | some n =>
      if n ≠ 0 then
        Act.line .warning (tag t ++ c.display ++ " exited with " ++ toString n)
    Act.give r
  | .error (.failure f) => do
    Act.line .warning (tag t ++ "ignored failure of " ++ c.display ++ ": " ++ f.message)
    Act.give ⟨none, [], []⟩
  | .error e => Act.fail e

/-- A free command is attempted, and a failure of it is forgiven. -/
theorem runFreely_eq (t : Target) (c : Command) :
    runFreely t c =
      Act.attempt (Act.exec t.container.id c.argv c.user c.workdir) >>= forgive t c := by
  refine Act.bind_congr_of_ok fun s u result hresult => ?_
  cases result with
  | error e => cases e <;> rfl
  | ok r =>
    have htellable : r.isTellable = true :=
      Act.isTellable_of_exec (Prod.ext (Except.ok.inj (congrArg Prod.fst hresult)) rfl)
    simp only [forgive, untold_of_isTellable htellable, Act.failIf]
    rfl

/-- What comes after a command that is held to its completion. -/
def hold (t : Target) (c : Command) (completion : Completion) (r : ExecResult) :
    Act ExecResult := do
  Act.failIf (judge c r completion)
  match completion with
  | .sleep millis => sleepAfter t c millis
  | _ => pure ()
  Act.give r

/-- A checked command is run and then held to its completion. -/
theorem runChecked_eq (t : Target) (c : Command) (completion : Completion) :
    runChecked t c completion =
      Act.exec t.container.id c.argv c.user c.workdir >>= hold t c completion :=
  rfl

/-- The target with another deadline. -/
def Target.withDeadline (t : Target) (deadline : Option Deadline) : Target :=
  { t with deadline := deadline }

section
variable {R : (α : Type) → Act α → Act α → Prop} (hR : Act.Relates R) {t : Target}
variable (deadline : Option Deadline)

include hR

/-- Only a fault that is no failure is passed on. -/
theorem forgive_relates {c : Command} {r : Except Fault ExecResult}
    (hline : ∀ gravity text, R Unit (Act.line gravity text) (Act.line gravity text))
    (hfail : ∀ e, r = .error e → R ExecResult (Act.fail e) (Act.fail e)) :
    R ExecResult (forgive t c r) (forgive (t.withDeadline deadline) c r) := by
  unfold forgive
  split
  · -- An exit code other than zero is only logged.
    rename_i r
    simp only
    split
    · exact hR.give r
    · split
      · exact hR.bind (hline _ _) fun _ => hR.give r
      · exact hR.give r
  · exact hR.bind (hline _ _) fun _ => hR.give _
  · exact hfail _ rfl

/-- What relates the judgement and the pause relates the whole of holding a command. -/
theorem hold_relates {c : Command} {completion : Completion} {r : ExecResult}
    (hjudge : R Unit (Act.failIf (judge c r completion)) (Act.failIf (judge c r completion)))
    (hsleep : ∀ millis, completion = .sleep millis →
      R Unit (sleepAfter t c millis) (sleepAfter (t.withDeadline deadline) c millis)) :
    R ExecResult (hold t c completion r) (hold (t.withDeadline deadline) c completion r) := by
  refine hR.bind hjudge fun _ => ?_
  cases completion with
  | sleep millis => exact hR.bind (hsleep millis rfl) fun _ => hR.give r
  | exitCode code => exact hR.give r
  | output stream text => exact hR.give r

/-- A command is run in one of two ways, and then its conditions are waited for. -/
theorem exec_relates {c : Command}
    (hline : ∀ gravity text, R Unit (Act.line gravity text) (Act.line gravity text))
    (hfree : c.completion = none →
      R ExecResult (runFreely t c) (runFreely (t.withDeadline deadline) c))
    (hchecked : ∀ completion, c.completion = some completion →
      R ExecResult (runChecked t c completion) (runChecked (t.withDeadline deadline) c completion))
    (hsettle : R Unit (settle t c) (settle (t.withDeadline deadline) c)) :
    R ExecResult (exec t c) (exec (t.withDeadline deadline) c) := by
  -- Both kinds of command settle in the same way afterwards.
  have hafter : ∀ r : ExecResult, R ExecResult (settle t c >>= fun _ => Act.give r)
      (settle (t.withDeadline deadline) c >>= fun _ => Act.give r) :=
    fun r => hR.bind hsettle fun _ => hR.give r
  unfold exec
  refine hR.bind (hline _ _) fun _ => ?_
  cases hcompletion : c.completion with
  | none => exact hR.bind (hfree hcompletion) hafter
  | some completion => exact hR.bind (hchecked completion hcompletion) hafter

/-- Steps are related if their commands and copies are. -/
theorem runSteps_relates {steps : List Step}
    (hexec : ∀ c, .command c ∈ steps → R ExecResult (exec t c) (exec (t.withDeadline deadline) c))
    (hcopy : ∀ p, R Unit (copy t p) (copy (t.withDeadline deadline) p)) :
    R (List ExecResult) (runSteps t steps) (runSteps (t.withDeadline deadline) steps) := by
  -- By the steps: each is run before the rest is looked at.
  induction steps with
  | nil => exact hR.give []
  | cons step rest ih =>
    have hrest := ih fun c hc => hexec c (List.mem_cons_of_mem step hc)
    have hstep :
        R (Option ExecResult) (runStep t step) (runStep (t.withDeadline deadline) step) := by
      cases step with
      | command c => exact hR.bind (hexec c List.mem_cons_self) fun r => hR.give (some r)
      | copy p => exact hR.bind (hcopy p) fun _ => hR.give none
    exact hR.bind hstep fun r => hR.bind hrest fun rs => hR.give (r.toList ++ rs)

/-- Sources are related if each of them is. -/
theorem runAll_relates {sources : List Source}
    (hsource : ∀ source ∈ sources,
      R (List ExecResult) (Act.ofExcept (source.expand t.container) >>= runSteps t)
        (Act.ofExcept (source.expand t.container) >>= runSteps (t.withDeadline deadline))) :
    R (List ExecResult) (runAll t sources) (runAll (t.withDeadline deadline) sources) := by
  induction sources with
  | nil => exact hR.give []
  | cons source rest ih =>
    have hrest := ih fun source hs => hsource source (List.mem_cons_of_mem _ hs)
    -- Regrouped, so that a source is expanded and run before the next one is called.
    have hcons : ∀ t : Target, runAll t (source :: rest) =
        (Act.ofExcept (source.expand t.container) >>= runSteps t) >>= fun rs =>
          runAll t rest >>= fun others => Act.give (rs ++ others) := by
      intro t
      rw [bind_assoc]
      rfl
    rw [hcons, hcons]
    exact hR.bind (hsource source List.mem_cons_self) fun rs => hR.bind hrest fun others =>
      hR.give (rs ++ others)

end

section
variable {P : (α : Type) → Act α → Prop} (hP : Act.Composes P) {t : Target}

include hP

/-- Forgiving needs only lines and, where it does not forgive, the failure. -/
theorem forgive_composes {c : Command} {r : Except Fault ExecResult}
    (hline : ∀ gravity text, P Unit (Act.line gravity text))
    (hfail : ∀ e, r = .error e → P ExecResult (Act.fail e)) : P ExecResult (forgive t c r) :=
  forgive_relates hP.relates t.deadline hline hfail

/-- Holding a command needs only its judgement and its pause. -/
theorem hold_composes {c : Command} {completion : Completion} {r : ExecResult}
    (hjudge : P Unit (Act.failIf (judge c r completion)))
    (hsleep : ∀ millis, completion = .sleep millis → P Unit (sleepAfter t c millis)) :
    P ExecResult (hold t c completion r) :=
  hold_relates hP.relates t.deadline hjudge hsleep

/-- A command needs its lines, its run with or without a check, and its settling. -/
theorem exec_composes {c : Command} (hline : ∀ gravity text, P Unit (Act.line gravity text))
    (hfree : c.completion = none → P ExecResult (runFreely t c))
    (hchecked : ∀ completion, c.completion = some completion →
      P ExecResult (runChecked t c completion))
    (hsettle : P Unit (settle t c)) : P ExecResult (exec t c) :=
  exec_relates hP.relates t.deadline hline hfree hchecked hsettle

/-- Steps have what their commands and copies have. -/
theorem runSteps_composes {steps : List Step}
    (hexec : ∀ c, .command c ∈ steps → P ExecResult (exec t c))
    (hcopy : ∀ p, P Unit (copy t p)) : P (List ExecResult) (runSteps t steps) :=
  runSteps_relates hP.relates t.deadline hexec hcopy

/-- Sources have what each of them has. -/
theorem runAll_composes {sources : List Source}
    (hsource : ∀ source ∈ sources,
      P (List ExecResult) (Act.ofExcept (source.expand t.container) >>= runSteps t)) :
    P (List ExecResult) (runAll t sources) :=
  runAll_relates hP.relates t.deadline hsource

end

variable (t : Target) (c : Command)

/-! ### Waits -/

/-- The ending of a wait for conditions. -/
def ending (conditions : List Condition) (d : Deadline) (s : Stage) : Readiness.Ending :=
  Readiness.waitAll ⟨t.container, s.box, s.world, t.settings⟩ conditions d s.now

/-- A wait for conditions only asks, from the moment at which it starts. -/
theorem await_goes (conditions : List Condition) (d : Deadline) :
    Goes (Note.IsQuestion t.container.id) (await t conditions d) := by
  intro s
  have h := Readiness.waitAll_asks ⟨t.container, s.box, s.world, t.settings⟩ conditions d s.now
  exact ⟨rfl, rfl, (List.append_nil _).symm, h.le_stop, _, rfl, h.notes⟩

section
variable {t} {conditions : List Condition} {d : Deadline} {s : Stage}

/-- A wait without a fault ends well, when it stops. -/
theorem await_eq_ok (h : (ending t conditions d s).fault = none) :
    await t conditions d s = (.ok (), { s with
      now := (ending t conditions d s).stop,
      trace := s.trace ++ (ending t conditions d s).trace }) := by
  simp only [await, ending] at h ⊢
  rw [h]

/-- A wait with a fault ends with it, when it stops. -/
theorem await_eq_error {f : Fault} (h : (ending t conditions d s).fault = some f) :
    await t conditions d s = (.error f, { s with
      now := (ending t conditions d s).stop,
      trace := s.trace ++ (ending t conditions d s).trace }) := by
  simp only [await, ending] at h ⊢
  rw [h]

end

/-- Settling only asks the container. -/
theorem settle_asks : Goes (Note.IsQuestion t.container.id) (settle t c) := by
  unfold settle
  split
  · exact Act.goes_pure ()
  · exact Act.goes_stage.bind fun s => await_goes t c.readiness _

/-- Settling does nothing with another container. -/
theorem settle_goes : Goes (Note.IsDeed t.container.id) (settle t c) :=
  (settle_asks t c).mono fun _ h => h.isDeed

/-! ### Commands -/

/-- A free command does nothing with another container. -/
theorem runFreely_goes : Goes (Note.IsDeed t.container.id) (runFreely t c) := by
  have hexec :
      Goes (Note.IsDeed t.container.id) (Act.exec t.container.id c.argv c.user c.workdir) :=
    Act.goes_exec rfl
  rw [runFreely_eq]
  exact hexec.attempt.bind fun r => forgive_composes (Act.goes_composes _)
    (fun _ _ => Act.goes_line trivial) fun e _ => Act.goes_fail e

section
variable {t c}

/-- A sleep against a deadline fails if it is longer than what remains, but only after what remains.
-/
theorem sleepAfter_eq {d : Deadline} (hd : t.deadline = some d) {millis : Nat} {length : Int}
    (hlength : Readiness.Delay.lengthOf millis = .ok length) (s : Stage) :
    sleepAfter t c millis s =
      (if d.remaining s.now < length then
        .error (.failure (.notReady [toString millis ++ "ms after " ++ c.display] (some d.total)
          (some "delay exceeds startup timeout")))
      else .ok (), { s with now := d.sleep s.now length }) := by
  unfold sleepAfter
  rw [hlength, hd]
  show (if d.remaining s.now < length then Act.fail _ else pure () : Act Unit) _ = _
  split <;> rfl

end

/-- A sleep notes nothing. -/
theorem sleepAfter_goes {P : Note → Prop} (millis : Nat) : Goes P (sleepAfter t c millis) := by
  unfold sleepAfter
  refine (Act.goes_ofExcept _).bind fun length => ?_
  split
  · exact Act.goes_sleep length
  · rename_i d _
    refine Act.goes_stage.bind fun _ => Act.Goes.bind ?_ fun _ => ?_
    · exact fun s => .of_trace_eq rfl rfl rfl (d.le_sleep s.now length) rfl
    · split
      · exact Act.goes_fail _
      · exact Act.goes_pure ()

/-- A checked command does nothing with another container. -/
theorem runChecked_goes (completion : Completion) :
    Goes (Note.IsDeed t.container.id) (runChecked t c completion) := by
  have hexec :
      Goes (Note.IsDeed t.container.id) (Act.exec t.container.id c.argv c.user c.workdir) :=
    Act.goes_exec rfl
  rw [runChecked_eq]
  exact hexec.bind fun r => hold_composes (Act.goes_composes _) (Act.goes_failIf _)
    fun millis _ => sleepAfter_goes t c millis

/-- A command does nothing with another container. -/
theorem exec_goes : Goes (Note.IsDeed t.container.id) (exec t c) :=
  exec_composes (Act.goes_composes _) (fun _ _ => Act.goes_line trivial)
    (fun _ => runFreely_goes t c)
    (fun completion _ => runChecked_goes t c completion) (settle_goes t c)

/-! ### Steps -/

/-- Nor does a sequence of steps. -/
theorem runSteps_goes (steps : List Step) :
    Goes (Note.IsDeed t.container.id) (runSteps t steps) :=
  runSteps_composes (Act.goes_composes _) (fun c _ => exec_goes t c) fun _ =>
    (Act.goes_line trivial).bind fun _ => Act.goes_copy rfl rfl

/-- Running the steps of sources only does deeds, whether it comes to its end or not. -/
theorem runAll_goes (sources : List Source) :
    Goes (Note.IsDeed t.container.id) (runAll t sources) :=
  runAll_composes (Act.goes_composes _) fun _ _ =>
    (Act.goes_ofExcept _).bind fun steps => runSteps_goes t steps

end Injection
end Slipway
