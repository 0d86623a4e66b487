import Slipway.Proofs.Lifecycle.Closing
import Slipway.Proofs.Readiness.Punctual

/-!
# `Slipway.Proofs.Lifecycle.Raising`: which faults a lifecycle raises

Let `P` be a kind of fault. A world raises only faults of that kind if all that its script says are
(`World.RaisesOnly`, `World.Box.RaisesOnly`); a request without an answer does not count, since the
waits ask again. A spec fits if what it raises by itself is of that kind too: a factory of steps, a
delay that is too long, a condition that cannot be waited for (`Spec.Raises`). Then so is every
fault that a lifecycle raises (`run_raises`). Failures are always of the kind.

`Act.Raises` states this of an act and is kept by acts in a row, so that it goes through the steps
and the legs like the facts on notes and on time. -/

set_option autoImplicit false

namespace Slipway

open Slipway.World (Act Stage)

variable {P : Fault → Prop}

/-! ### Worlds of one kind of fault -/

/-- A box that raises only faults of a kind. -/
structure World.Box.RaisesOnly (P : Fault → Prop) (b : World.Box) : Prop where
  create : ∀ f, b.createFault = some f → P f
  start : ∀ f, b.startFault = some f → P f
  status : ∀ f, b.statusFault = some f → P f
  inspect : ∀ f, b.inspectFault = some f → P f
  copy : ∀ f, b.copyFault = some f → P f
  remove : ∀ f, b.removeFault = some f → P f
  logs : ∀ f, b.logsFault = some f → P f
  logEnd : ∀ f, b.logEndFault = some f → P f
  health : ∀ p ∈ b.health, ∀ f, p.status = .error f → P f
  execs : ∀ e ∈ b.execs, ∀ f, e.fault = some f → P f

/-- A world whose URLs raise only faults of a kind, but for requests that get no answer. -/
def World.RaisesOnly (P : Fault → Prop) (w : World) : Prop :=
  ∀ url now f, w.replyAt url now = .fault f → (∀ name text, f ≠ .request name text) → P f

/-- A quiet box raises nothing. -/
theorem World.Box.quiet_raisesOnly : World.Box.quiet.RaisesOnly P := by
  constructor <;> simp [World.Box.quiet]

/-- In the quiet world there is nothing but requests without an answer. -/
theorem World.quiet_raisesOnly : World.quiet.RaisesOnly P := by
  intro url now f hreply hother
  cases hreply
  exact absurd rfl (hother _ _)

/-- A stage that raises only faults of a kind. -/
structure World.Stage.RaisesOnly (P : Fault → Prop) (s : Stage) : Prop where
  box : s.box.RaisesOnly P
  world : s.world.RaisesOnly P

namespace World.Act

/-- Whether an act raises only faults of a kind, and leaves a stage that does. -/
def Raises {α : Type} (P : Fault → Prop) (x : Act α) : Prop :=
  ∀ s : Stage, s.RaisesOnly P → (∀ e, (x s).1 = .error e → P e) ∧ (x s).2.RaisesOnly P

section
variable {α β : Type}

/-- What follows an act only has to be of the kind for the values that the act can give. -/
theorem Raises.bind_of_ok {x : Act α} {f : α → Act β} (hx : Raises P x)
    (hf : ∀ s t a, x s = (.ok a, t) → Raises P (f a)) : Raises P (x >>= f) := by
  intro s hs
  obtain ⟨herror, ht⟩ := hx s hs
  cases h : x s with
  | mk r t =>
    rw [h] at herror ht
    -- Only what the first act gives decides what comes next, so a failure needs nothing of it.
    cases r with
    | ok a =>
      rw [World.Act.bind_of_ok h]
      exact hf s t a h t ht
    | error e =>
      rw [bind_of_error h]
      exact ⟨fun e' he => herror e' (by cases he; rfl), ht⟩

/-- Acts in a row raise what each of them raises. -/
theorem Raises.bind {x : Act α} {f : α → Act β} (hx : Raises P x) (hf : ∀ a, Raises P (f a)) :
    Raises P (x >>= f) :=
  hx.bind_of_ok fun _ _ a _ => hf a

/-- After an attempt the fault that was met is known to be of the kind. -/
theorem Raises.attempt_bind {x : Act α} {f : Except Fault α → Act β} (hx : Raises P x)
    (hf : ∀ r, (∀ e, r = .error e → P e) → Raises P (f r)) : Raises P (attempt x >>= f) := by
  intro s hs
  obtain ⟨herror, ht⟩ := hx s hs
  exact hf (x s).1 herror (x s).2 ht

/-- An act may look at a stage that raises only faults of the kind. -/
theorem Raises.of_stage {f : Stage → Act β} (hf : ∀ s, s.RaisesOnly P → Raises P (f s)) :
    Raises P (stage >>= f) :=
  fun s hs => hf s hs s hs

/-- An act that ends well and leaves the box and the world as they are raises nothing. -/
theorem raises_of_calm {x : Act α} (hok : ∀ s, ∃ a, (x s).1 = .ok a)
    (hbox : ∀ s, (x s).2.box = s.box) (hworld : ∀ s, (x s).2.world = s.world) : Raises P x := by
  intro s hs
  refine ⟨fun e he => ?_, ⟨hbox s ▸ hs.box, hworld s ▸ hs.world⟩⟩
  obtain ⟨a, ha⟩ := hok s
  rw [ha] at he
  cases he

/-- A value raises nothing. -/
theorem raises_give (a : α) : Raises P (give a) :=
  raises_of_calm (fun _ => ⟨a, rfl⟩) (fun _ => rfl) fun _ => rfl

/-- So acts that raise only certain faults compose. -/
theorem raises_composes (P : Fault → Prop) : Composes fun _ x => Raises P x :=
  ⟨raises_give, Raises.bind⟩

/-- A failure raises itself. -/
theorem raises_fail {e : Fault} (h : P e) : Raises P (fail e : Act α) := by
  refine fun s hs => ⟨fun e' he => ?_, hs⟩
  cases he
  exact h

/-- What is known without the container raises its own fault. -/
theorem raises_ofExcept {r : Except Fault α} (h : ∀ e, r = .error e → P e) :
    Raises P (ofExcept r) :=
  fun _ hs => ⟨h, hs⟩

/-- What follows a result only has to be of the kind for the value of that result. -/
theorem raises_ofExcept_bind {r : Except Fault α} {f : α → Act β} (h : ∀ e, r = .error e → P e)
    (hf : ∀ a, r = .ok a → Raises P (f a)) : Raises P (ofExcept r >>= f) := by
  cases r with
  | ok a => exact fun s hs => hf a rfl s hs
  | error e => exact fun _ hs => ⟨fun e' he => h e' (by cases he; rfl), hs⟩

/-- A failure that there may be raises itself. -/
theorem raises_failIf {e : Option Fault} (h : ∀ f, e = some f → P f) : Raises P (failIf e) := by
  cases e with
  | none => exact raises_give ()
  | some f => exact raises_fail (h f rfl)

/-- A note raises nothing. -/
theorem raises_note (n : Note) : Raises P (note n) :=
  raises_of_calm (fun _ => ⟨(), rfl⟩) (fun _ => rfl) fun _ => rfl

/-- A line in the log raises nothing. -/
theorem raises_line (gravity : Gravity) (text : String) : Raises P (line gravity text) :=
  raises_note _

/-- The passing of time raises nothing. -/
theorem raises_pass (length : Int) : Raises P (pass length) :=
  raises_of_calm (fun _ => ⟨(), rfl⟩) (fun _ => rfl) fun _ => rfl

end

/-! ### Calls to the engine -/

/-- A creation raises what the box does. -/
theorem raises_create (spec : Spec) (ordinal : Nat) : Raises P (create spec ordinal) := by
  intro s hs
  rw [create_eq]
  cases hf : s.box.createFault with
  | some e => exact ⟨fun e' he => hs.box.create e' (by cases he; exact hf), hs⟩
  | none => exact ⟨nofun, hs.box, hs.world⟩

/-- A start raises what the box does. -/
theorem raises_start (id : String) : Raises P (start id) := by
  refine (raises_note _).bind fun _ => .of_stage fun s hs => (raises_pass _).bind fun _ =>
    (raises_failIf hs.box.start).bind fun _ => ?_
  exact raises_of_calm (fun _ => ⟨(), rfl⟩) (fun _ => rfl) fun _ => rfl

/-- The status raises what the box does. -/
theorem raises_status : Raises P status :=
  .of_stage fun _ hs => (raises_failIf hs.box.status).bind fun _ => raises_give _

/-- An inspection raises what the box does. -/
theorem raises_inspect (spec : Spec) (id : String) : Raises P (inspect spec id) :=
  (raises_note _).bind fun _ => .of_stage fun _ hs =>
    (raises_failIf hs.box.inspect).bind fun _ => raises_give _

/-- A copy raises what the box does. -/
theorem raises_copy (id : String) (p : Payload) : Raises P (copy id p) :=
  (raises_note _).bind fun _ => .of_stage fun _ hs =>
    (raises_failIf hs.box.copy).bind fun _ => raises_note _

/-- A removal raises what the box does. -/
theorem raises_remove (id : String) : Raises P (remove id) :=
  (raises_note _).bind fun _ => .of_stage fun _ hs => raises_failIf hs.box.remove

/-- A command raises the fault of its script, and the scripts that are left are no others. -/
theorem raises_exec (id : String) (argv : List String) (user workdir : Option String) :
    Raises P (exec id argv user workdir) := by
  intro s hs
  rw [exec_eq]
  rcases s.box.takeExec_cases argv with htake | ⟨e, hmem, -, rest, hrest, htake⟩
  · rw [htake]
    exact ⟨nofun, hs.box, hs.world⟩
  · rw [htake]
    refine ⟨fun f hf => ?_, ?_, hs.world⟩
    · -- A command gives its result, or the fault that the box holds for it.
      cases hfault : e.fault with
      | none => simp [hfault] at hf
      | some f' =>
        simp only [hfault, Except.error.injEq] at hf
        exact hf ▸ hs.box.execs e hmem f' hfault
    · exact { hs.box with execs := fun e' he' => hs.box.execs e' (hrest he') }

end World.Act

/-! ### Specs of one kind of fault -/

/-- A condition that raises by itself only faults of a kind: no leaf of it refuses with another. -/
def Condition.RaisesOnly (P : Fault → Prop) (settings : Settings) (c : Condition) : Prop :=
  ∀ l ∈ c.leaves, ∀ scene : Readiness.Scene, scene.settings = settings →
    ∀ f, scene.Refuses l f → P f

/-- A command that raises by itself only faults of a kind, in its delay or its conditions. -/
structure Command.RaisesOnly (P : Fault → Prop) (settings : Settings) (c : Command) : Prop where
  sleep : ∀ millis, c.completion = some (.sleep millis) →
    ∀ f, Readiness.Delay.lengthOf millis = .error f → P f
  readiness : ∀ r ∈ c.readiness, r.RaisesOnly P settings

/-- A source that raises only faults of a kind, whichever container it is expanded for, and so do
its commands. -/
structure Source.RaisesOnly (P : Fault → Prop) (settings : Settings) (source : Source) : Prop where
  expand : ∀ container f, source.expand container = .error f → P f
  commands : ∀ container steps, source.expand container = .ok steps →
    ∀ c, .command c ∈ steps → c.RaisesOnly P settings

/-- A spec that raises by itself only faults of a kind. -/
structure Spec.RaisesOnly (P : Fault → Prop) (settings : Settings) (spec : Spec) : Prop where
  waitFor : ∀ c ∈ spec.waitFor, c.RaisesOnly P settings
  execBeforeReady : ∀ source ∈ spec.execBeforeReady, source.RaisesOnly P settings
  execAfterStart : ∀ source ∈ spec.execAfterStart, source.RaisesOnly P settings

/-! ### Waits -/

namespace Readiness

variable {scene : Scene} {d : Deadline} {now : Int} {f : Fault}

/-- What the world raises in a wait is of the kind. -/
theorem Scene.Raises.kind (hbox : scene.box.RaisesOnly P) (hworld : scene.world.RaisesOnly P)
    (h : scene.Raises f) : P f := by
  rcases h with hlogs | hend | ⟨t, hhealth⟩ | ⟨url, t, hreply, hother⟩
  · exact hbox.logs f hlogs
  · exact hbox.logEnd f hend
  · unfold World.Box.healthAt at hhealth
    split at hhealth
    · cases hhealth
    · rename_i p hlast
      exact hbox.health p (List.mem_of_mem_filter (List.mem_of_getLast? hlast)) f hhealth
  · exact hworld url t f hreply hother

/-- A wait for conditions that raise only faults of the kind ends well or with one of them. -/
theorem waitAll_raises (hfailure : ∀ f, P (.failure f)) (hbox : scene.box.RaisesOnly P)
    (hworld : scene.world.RaisesOnly P) {cs : List Condition}
    (hcs : ∀ c ∈ cs, c.RaisesOnly P scene.settings)
    (h : (waitAll scene cs d now).fault = some f) : P f := by
  have hready : ∀ unmet timeout reason, P (.failure (.notReady unmet timeout reason)) :=
    fun _ _ _ => hfailure _
  refine waitForAll_raises hready (all_raise_of_leaves hready cs ?_) d f h
  intro l hl d f hf
  obtain ⟨c, hc, hlc⟩ : ∃ c ∈ cs, l ∈ c.leaves := by
    rw [Condition.leavesAll_eq_flatMap] at hl
    exact List.mem_flatMap.mp hl
  -- A leaf fails by what the world raises, by what the condition refuses, or as not ready.
  rcases fault_of_leaf (Condition.isLeaf_of_mem_leaves hlc) hf with hraises | hrefuses | ⟨_, rfl, _⟩
  · exact hraises.kind hbox hworld
  · exact hcs c hc l hlc scene rfl f hrefuses
  · exact hfailure _

end Readiness

/-! ### Steps -/

namespace Injection

open Slipway.World.Act (Raises)

section
variable {t : Target} {c : Command} (hfailure : ∀ f, P (.failure f))

include hfailure

/-- A wait raises what the world does, what its conditions refuse, and failures. -/
theorem await_raises {conditions : List Condition}
    (hconditions : ∀ c ∈ conditions, c.RaisesOnly P t.settings) (d : Deadline) :
    Raises P (await t conditions d) := by
  intro s hs
  refine ⟨fun e he => ?_, hs.box, hs.world⟩
  -- The act raises what the wait has ended with.
  cases hfault : (ending t conditions d s).fault with
  | none =>
    rw [await_eq_ok hfault] at he
    cases he
  | some f =>
    rw [await_eq_error hfault] at he
    cases he
    exact Readiness.waitAll_raises hfailure hs.box hs.world hconditions hfault

/-- So does settling. -/
theorem settle_raises (hc : c.RaisesOnly P t.settings) : Raises P (settle t c) := by
  unfold settle
  split
  · exact Act.raises_give ()
  · exact .of_stage fun _ _ => await_raises hfailure hc.readiness _

omit hfailure in
/-- A free command raises what the box does. -/
theorem runFreely_raises : Raises P (runFreely t c) := by
  rw [runFreely_eq]
  exact (Act.raises_exec _ _ _ _).attempt_bind fun r hr =>
    forgive_composes (Act.raises_composes P) Act.raises_line fun e he => Act.raises_fail (hr e he)

/-- Against a deadline a sleep is taken in slices, and none of them is too long for the clock. -/
theorem sleepAfter_raises (hd : t.deadline ≠ none) {millis : Nat}
    (hmillis : ∀ f, Readiness.Delay.lengthOf millis = .error f → P f) :
    Raises P (sleepAfter t c millis) := by
  unfold sleepAfter
  refine (Act.raises_ofExcept hmillis).bind fun length => ?_
  split
  · exact absurd ‹_› hd
  · refine .of_stage fun s _ => Raises.bind ?_ fun _ => ?_
    · exact Act.raises_of_calm (fun _ => ⟨(), rfl⟩) (fun _ => rfl) fun _ => rfl
    · split
      · exact Act.raises_fail (hfailure _)
      · exact Act.raises_give ()

/-- All that a completion can find fault with in a result is a failure. -/
theorem judge_raises {completion : Completion} {r : ExecResult} (hr : r.isTellable = true) :
    ∀ f, judge c r completion = some f → P f := by
  intro f hf
  -- A wrong code or a missing output is a failure, and a pause is not judged.
  cases completion with
  | exitCode n =>
    rw [judge_exitCode hr] at hf
    split at hf <;> cases hf
    exact hfailure _
  | output stream text =>
    unfold judge at hf
    simp only at hf
    split at hf <;> cases hf
    exact hfailure _
  | sleep millis => cases hf

/-- Under a deadline a checked command raises failures too, and what its pause refuses. -/
theorem runChecked_raises (hd : t.deadline ≠ none) (hc : c.RaisesOnly P t.settings)
    {completion : Completion} (hcompletion : c.completion = some completion) :
    Raises P (runChecked t c completion) := by
  rw [runChecked_eq]
  refine (Act.raises_exec _ _ _ _).bind_of_ok fun s u r hr => ?_
  have hjudge : ∀ f, judge c r completion = some f → P f :=
    judge_raises hfailure (Act.isTellable_of_exec hr)
  refine hold_composes (Act.raises_composes P) (Act.raises_failIf hjudge) fun millis hmillis => ?_
  exact sleepAfter_raises hfailure hd (hc.sleep millis (hmillis ▸ hcompletion))

/-- So does any command. -/
theorem exec_raises (hd : t.deadline ≠ none) (hc : c.RaisesOnly P t.settings) :
    Raises P (exec t c) :=
  exec_composes (Act.raises_composes P) Act.raises_line (fun _ => runFreely_raises)
    (fun _ hcompletion => runChecked_raises hfailure hd hc hcompletion) (settle_raises hfailure hc)

/-- So do steps. -/
theorem runSteps_raises (hd : t.deadline ≠ none) {steps : List Step}
    (hsteps : ∀ c, .command c ∈ steps → c.RaisesOnly P t.settings) : Raises P (runSteps t steps) :=
  runSteps_composes (Act.raises_composes P) (fun c hc => exec_raises hfailure hd (hsteps c hc))
    fun p => (Act.raises_line _ _).bind fun _ => Act.raises_copy t.container.id p

/-- So do sources, which may be refused by their factories. -/
theorem runAll_raises (hd : t.deadline ≠ none) {sources : List Source}
    (hsources : ∀ source ∈ sources, source.RaisesOnly P t.settings) :
    Raises P (runAll t sources) := by
  refine runAll_composes (Act.raises_composes P) fun source hmem => ?_
  have hsource := hsources source hmem
  refine Act.raises_ofExcept_bind (hsource.expand t.container) fun steps hsteps => ?_
  exact runSteps_raises hfailure hd (hsource.commands t.container steps hsteps)

end

end Injection

/-! ### Lifecycles -/

namespace Lifecycle

open Slipway.World.Act (Raises)

/-- Entering a phase raises nothing. -/
theorem enter_raises (spec : Spec) (p : Phase) : Raises P (enter spec p) :=
  Act.raises_of_calm (fun _ => ⟨(), rfl⟩) (fun _ => rfl) fun _ => rfl

section
variable {settings : Settings} {spec : Spec} (hfailure : ∀ f, P (.failure f))

include hfailure

/-- Starting and inspecting raises what the box does, and failures. -/
theorem start_raises (id : String) : Raises P (start spec id) := by
  refine (Act.raises_start id).bind fun _ => Act.raises_status.bind fun status => ?_
  split
  · exact Act.raises_inspect spec id
  · exact Act.raises_fail (hfailure _)

/-- A phase of commands raises what its sources do. -/
theorem runPhase_raises {p : Phase} {t : Injection.Target} (hd : t.deadline ≠ none)
    {sources : List Source} (hsources : ∀ source ∈ sources, source.RaisesOnly P t.settings) :
    Raises P (runPhase spec p t sources) :=
  runPhase_composes (Act.raises_composes P) (enter_raises spec p)
    (Injection.runAll_raises hfailure hd hsources)

/-- Bringing up raises what the box, the world and the spec do. -/
theorem bringUp_raises (hspec : spec.RaisesOnly P settings) (timeout : Option Binary64)
    (ordinal : Nat) : Raises P (bringUp settings spec timeout ordinal) := by
  unfold bringUp
  refine (Act.raises_create spec ordinal).bind fun id => (enter_raises spec _).bind fun _ =>
    (start_raises hfailure id).bind fun container => (enter_raises spec _).bind fun _ =>
      .of_stage fun s _ => ?_
  have hd : some (Deadline.start s.now (timeoutOf settings spec timeout)) ≠ none :=
    Option.some_ne_none _
  exact (runPhase_raises hfailure hd hspec.execBeforeReady).bind fun _ =>
    (enter_raises spec _).bind fun _ =>
      (Injection.await_raises hfailure hspec.waitFor _).bind fun _ =>
      (runPhase_raises hfailure hd hspec.execAfterStart).bind fun _ => Act.raises_give container

omit hfailure in
/-- Discarding raises what the removal does. -/
theorem discard_raises (id : String) : Raises P (discard id) := by
  unfold discard
  refine (Act.raises_remove id).attempt_bind fun r hr => ?_
  split
  · exact Act.raises_give ()
  · split
    · exact Act.raises_fail (hr _ rfl)
    · exact Act.raises_line _ _

omit hfailure in
/-- So does discarding what was created. -/
theorem discardCreated_raises : Raises P discardCreated := by
  refine .of_stage fun s _ => ?_
  split
  · exact Act.raises_give ()
  · split
    · exact Act.raises_give ()
    · exact discard_raises _

/-- A lifecycle raises only faults of the kind if its world and its spec do. -/
theorem run_raises (hspec : spec.RaisesOnly P settings) (timeout : Option Binary64)
    (ordinal : Nat) :
    Raises P (run settings spec timeout ordinal) := by
  refine (bringUp_raises hfailure hspec timeout ordinal).attempt_bind fun r hr => ?_
  split
  · exact (enter_raises spec _).bind fun _ => .of_stage fun _ _ => Act.raises_give _
  · refine (enter_raises spec _).bind fun _ => (Act.raises_line _ _).bind fun _ => ?_
    simp only
    split
    · exact discardCreated_raises.bind fun _ => .of_stage fun _ _ => Act.raises_give _
    · exact .of_stage fun _ _ => Act.raises_give _
  · exact discardCreated_raises.bind fun _ => Act.raises_fail (hr _ rfl)

end

end Lifecycle
end Slipway
