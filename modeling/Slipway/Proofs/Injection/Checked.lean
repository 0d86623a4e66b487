import Slipway.Proofs.Injection.Completion
import Slipway.Proofs.World.Pace

/-!
# `Slipway.Proofs.Injection.Checked`: commands that have to exit with zero

A list of commands of which each has to exit with zero is run up to the first that does not.
`World.Box.answers` says how commands end that are run one after the other in a box. A box may know
a command several times, so each answer is that of the box which the commands before have left.
`World.Box.Refuses` names the first command that does not exit with zero.

`exec_checked` is the step: one command is noted, and ends as the box answers. By induction on the
list, `runAll_refused` states that the commands up to the first refused one are noted, each once,
and no other, and that the run ends with the failure of that command. -/

set_option autoImplicit false

namespace Slipway

open Slipway.World (Act Stage)

/-! ### Answers -/

namespace World.Box

variable {b b' : World.Box}

/-- How a command ends in a box. One without a script exits with zero. -/
def answer (b : World.Box) (argv : List String) : Except Fault ExecResult :=
  match (b.takeExec argv).1 with
  | none => .ok ⟨some 0, [], []⟩
  | some e => match e.fault with
    | none => .ok e.result
    | some f => .error f

/-- How commands end that are run one after the other. -/
def answers (b : World.Box) : List (List String) → List (Except Fault ExecResult)
  | [] => []
  | argv :: rest => b.answer argv :: (b.takeExec argv).2.answers rest

/-- Answers are a matter of the scripts only. -/
theorem answers_congr (h : b'.execs = b.execs) (commands : List (List String)) :
    b'.answers commands = b.answers commands := by
  induction commands generalizing b b' with
  | nil => rfl
  | cons argv rest ih =>
    obtain ⟨hfirst, hrest⟩ := takeExec_congr h argv
    rw [answers, answers, answer, answer, hfirst, ih hrest]

/-- The first of some commands that does not exit with zero when they are run one after the other,
by its place, and its result. -/
structure Refuses (b : World.Box) (commands : List (List String)) (k : Nat) (r : ExecResult) :
    Prop where
  refused : (b.answers commands)[k]? = some (.ok r)
  code : r.exitCode ≠ some 0
  before : ∀ j < k, ∃ q, (b.answers commands)[j]? = some (.ok q) ∧ q.exitCode = some 0

/-- What a box refuses depends on its answers to commands only. -/
theorem Refuses.congr {commands : List (List String)} {k : Nat} {r : ExecResult}
    (h : b.Refuses commands k r) (hb : b'.execs = b.execs) : b'.Refuses commands k r := by
  have hanswers := answers_congr hb commands
  exact ⟨hanswers ▸ h.refused, h.code, hanswers ▸ h.before⟩

end World.Box

namespace Injection

variable {t : Target} {s : Stage}

/-! ### One command -/

/-- What a command in a container leaves: it is noted, its script is used up, and the box is the
same apart from its scripts and its log. -/
structure Ran (argv : List String) (s u : Stage) : Prop where
  commands : u.trace.commands = s.trace.commands ++ [argv]
  execs : u.box.execs = (s.box.takeExec argv).2.execs
  removal : u.box.removeFault = s.box.removeFault

/-- The call of the engine for a command ends as the box answers. -/
theorem callOf_answer (t : Target) (c : Command) (s : Stage) :
    ∃ u, callOf t c s = (s.box.answer c.argv, u) ∧ Ran c.argv s u := by
  have hcommands : (s.trace ++ [⟨s.now, .line .info (tag t ++ "exec: " ++ c.display)⟩]
      ++ [⟨s.now, .event t.container.id (.exec c.argv c.user c.workdir)⟩] : World.Trace).commands
      = s.trace.commands ++ [c.argv] := by
    simp [World.Trace.commands]
  have hbox : (announced t c s).box = s.box := rfl
  rw [callOf, Act.exec_eq, World.Box.answer, hbox]
  -- The answer may be scripted or the default; both leave the other answers in place.
  rcases s.box.takeExec_cases c.argv with htake | ⟨e, -, -, left, -, htake⟩
  · rw [htake]
    exact ⟨_, rfl, hcommands, by rw [htake]; rfl, rfl⟩
  · rw [htake]
    exact ⟨_, rfl, hcommands, by rw [htake]; rfl, rfl⟩

/-- What an answer means for a command that has to exit with zero. -/
def verdict (argv : List String) : Except Fault ExecResult → Except Fault ExecResult
  | .ok r => if r.exitCode = some 0 then .ok r
    else .error (.failure (.execFailed argv r.exitCode r.stdout r.stderr none))
  | .error e => .error e

/-- A command that has to exit with zero ends by the verdict on its answer. -/
theorem exec_checked (t : Target) (argv : List String) (s : Stage) :
    ∃ u, exec t (.checked argv) s = (verdict argv (s.box.answer argv), u) ∧ Ran argv s u := by
  obtain ⟨u, hcall, hran⟩ := callOf_answer t (.checked argv) s
  refine ⟨u, ?_, hran⟩
  have hcompletion : (Command.checked argv).completion = some (.exitCode 0) := rfl
  rw [exec_eq]
  cases hanswer : s.box.answer argv with
  | error e =>
    have hcall : callOf t (.checked argv) s = (.error e, u) := by rw [hcall, ← hanswer]; rfl
    exact Act.bind_of_error (perform_error hcall (.inl (by simp [hcompletion])))
  | ok r =>
    have hcall : callOf t (.checked argv) s = (.ok r, u) := by rw [hcall, ← hanswer]; rfl
    have hperform := perform_checked hcompletion hcall
    rw [hold_exitCode (Act.isTellable_of_exec hcall)] at hperform
    rw [verdict]
    by_cases hcode : r.exitCode = some 0
    -- With nothing to wait for after the command, the verdict is how it ends.
    · rw [if_pos hcode] at hperform ⊢
      exact (Act.bind_of_ok hperform).trans (Act.bind_of_ok (settle_of_no_conditions rfl u))
    · rw [if_neg hcode] at hperform ⊢
      exact Act.bind_of_error hperform

/-! ### Commands in order -/

/-- Commands that have to exit with zero, as sources. -/
def checkedSources (commands : List (List String)) : List Source :=
  commands.map fun argv => .step (.command (.checked argv))

/-- A checked command comes before the rest, and its result first. -/
theorem runAll_checked_cons (t : Target) (argv : List String) (rest : List (List String)) :
    runAll t (checkedSources (argv :: rest)) = exec t (.checked argv) >>= fun r =>
      runAll t (checkedSources rest) >>= fun others => Act.give ([r] ++ others) := by
  have hsteps : runSteps t [.command (.checked argv)] =
      exec t (.checked argv) >>= fun r => Act.give [r] := by
    simp only [runSteps, runStep, bind_assoc, Act.give_bind]
    rfl
  show runSteps t [.command (.checked argv)] >>= (fun rs => runAll t (checkedSources rest) >>= _) =
      _
  rw [hsteps, bind_assoc]
  rfl

/-- Commands are run up to the first that does not exit with zero, and end with its failure. -/
theorem runAll_refused {commands : List (List String)} {k : Nat} {r : ExecResult}
    (h : s.box.Refuses commands k r) :
    ∃ u argv, commands[k]? = some argv ∧
      runAll t (checkedSources commands) s =
        (.error (.failure (.execFailed argv r.exitCode r.stdout r.stderr none)), u) ∧
      u.trace.commands = s.trace.commands ++ commands.take (k + 1) ∧
      u.box.removeFault = s.box.removeFault := by
  induction commands generalizing k s with
  | nil => cases h.refused
  | cons argv rest ih =>
    obtain ⟨u, hexec, hran⟩ := exec_checked t argv s
    cases k with
    | zero =>
      have hanswer : s.box.answer argv = .ok r := Option.some.inj h.refused
      rw [hanswer, verdict, if_neg h.code] at hexec
      refine ⟨u, argv, rfl, ?_, hran.commands, hran.removal⟩
      rw [runAll_checked_cons]
      exact Act.bind_of_error hexec
    | succ k =>
      -- The first command exits with zero, and the others are run in the box that it leaves.
      obtain ⟨q, hq, hcode⟩ := h.before 0 (Nat.zero_lt_succ k)
      have hanswer : s.box.answer argv = .ok q := Option.some.inj hq
      rw [hanswer, verdict, if_pos hcode] at hexec
      have hrest : (s.box.takeExec argv).2.Refuses rest k r :=
        ⟨h.refused, h.code, fun j hj => h.before (j + 1) (Nat.succ_lt_succ hj)⟩
      obtain ⟨v, argv', hk, hrun, hcommands, hremoval⟩ := ih (hrest.congr hran.execs)
      refine ⟨v, argv', hk, ?_, ?_, hremoval.trans hran.removal⟩
      · rw [runAll_checked_cons]
        exact (Act.bind_of_ok hexec).trans (Act.bind_of_error hrun)
      · rw [hcommands, hran.commands, List.append_assoc]
        rfl

end Injection
end Slipway
