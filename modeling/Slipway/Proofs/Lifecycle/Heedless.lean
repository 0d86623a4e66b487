import Slipway.Proofs.Lifecycle.Legs
import Slipway.Proofs.Readiness.Looks

/-!
# `Slipway.Proofs.Lifecycle.Heedless`: what a lifecycle does not heed

A stage has more to it than a lifecycle looks at. The world says what becomes of all containers and
how long the clock can sleep at a stretch. A lifecycle only looks at its own box and at the URLs,
and takes its sleeps in slices, since it has a deadline. The box says what comes of its removal, and
bringing a container up does not look at that. And nothing ever looks at what has been noted before.
A `World.Variation` changes these parts of a stage.

An act is `Act.Heedless` of a variation if it goes the same way on a stage and on the varied one: it
gives the same result, and leaves the stage that it would have left, varied. The calls to the engine
are heedless but for the removal itself, waits do not look at what is varied, and acts in a row are
heedless if each is. So `bringUp_heedless` holds of the whole way up, and `run_heedless` of the
whole lifecycle if the variation leaves the removal as it is. -/

set_option autoImplicit false

namespace Slipway

open Slipway.World (Act Note Stage)

/-- The box in which a removal ends with a fault, or well. -/
def World.Box.withRemoval (b : World.Box) (q : Option Fault) : World.Box :=
  { b with removeFault := q }

/-- The stage in which a removal ends with a fault, or well. -/
def World.Stage.withRemoval (s : Stage) (q : Option Fault) : Stage :=
  { s with box := s.box.withRemoval q }

/-- A change of what bringing a container up does not look at: of what comes of its removal, of the
boxes of other containers, of how long the clock can sleep at a stretch, and of what was noted
before. -/
structure World.Variation where
  removal : Option Fault → Option Fault
  usual : World.Box → World.Box
  boxes : List (String × World.Box) → List (String × World.Box)
  longestSleep : Option Int → Option Int
  before : World.Trace

namespace World.Variation

/-- A change of what comes of a removal only. -/
def removing (q : Option Fault) : Variation := ⟨fun _ => q, id, id, id, []⟩

/-- A change to all of another world but its URLs. -/
def amid (w : World) : Variation :=
  ⟨id, fun _ => w.usual, fun _ => w.boxes, fun _ => w.longestSleep, []⟩

/-- A change of what was noted before only. -/
def following (before : Trace) : Variation := ⟨id, id, id, id, before⟩

end World.Variation

open Slipway.World (Variation)

/-- The varied box. -/
def World.Box.vary (v : Variation) (b : World.Box) : World.Box :=
  b.withRemoval (v.removal b.removeFault)

/-- The varied world. -/
def World.vary (v : Variation) (w : World) : World :=
  { w with
    usual := v.usual w.usual
    boxes := v.boxes w.boxes
    longestSleep := v.longestSleep w.longestSleep }

/-- The varied stage. -/
def World.Stage.vary (v : Variation) (s : Stage) : Stage :=
  { s with box := s.box.vary v, world := s.world.vary v, trace := v.before ++ s.trace }

variable {v : Variation}

/-- Notes are taken in the varied stage as in the other. -/
theorem World.Stage.note_vary (s : Stage) (n : Note) : (s.vary v).note n = (s.note n).vary v := by
  simp only [note, vary, List.append_assoc]

/-- A wait does not see what is varied in a box. -/
theorem World.Box.looksLike_vary (b : World.Box) : b.LooksLike (b.vary v) :=
  ⟨rfl, rfl, rfl, rfl, rfl⟩

/-- The varied box answers commands alike. -/
theorem World.Box.takeExec_vary (b : World.Box) (argv : List String) :
    (b.vary v).takeExec argv = ((b.takeExec argv).1, (b.takeExec argv).2.vary v) := by
  have hexecs : (b.vary v).execs = b.execs := rfl
  unfold takeExec
  simp only [hexecs]
  split <;> rfl

namespace World.Act

/-- Whether an act goes the same way on a varied stage. -/
def Heedless (v : Variation) {α : Type} (x : Act α) : Prop :=
  ∀ s : Stage, x (s.vary v) = ((x s).1, (x s).2.vary v)

section
variable {α β : Type}

/-- Heedless acts in a row are heedless. -/
theorem Heedless.bind {x : Act α} {f : α → Act β} (hx : Heedless v x) (hf : ∀ a, Heedless v (f a)) :
    Heedless v (x >>= f) := by
  intro s
  have hs := hx s
  cases h : x s with
  | mk r t =>
    rw [h] at hs
    cases r with
    | ok a =>
      rw [bind_of_ok h, bind_of_ok hs]
      exact hf a t
    | error e => rw [bind_of_error h, bind_of_error hs]

/-- An act may look at the stage as long as it does not look at what is varied. -/
theorem Heedless.of_stage {f : Stage → Act β} (hlook : ∀ s : Stage, f (s.vary v) = f s)
    (hf : ∀ s, Heedless v (f s)) : Heedless v (stage >>= f) := by
  intro s
  show f (s.vary v) (s.vary v) = ((f s s).1, (f s s).2.vary v)
  rw [hlook]
  exact hf s s

/-- A value is given whatever the variation. -/
theorem heedless_give (a : α) : Heedless v (give a) := fun _ => rfl

/-- So heedless acts compose. -/
theorem heedless_composes : Composes fun _ x => Heedless v x := ⟨heedless_give, Heedless.bind⟩

/-- A failure is raised whatever the variation. -/
theorem heedless_fail (e : Fault) : Heedless v (fail e : Act α) := fun _ => rfl

/-- What is known without the container does not depend on it. -/
theorem heedless_ofExcept (r : Except Fault α) : Heedless v (ofExcept r) := fun _ => rfl

/-- A failure that there may be does not depend on the container. -/
theorem heedless_failIf (e : Option Fault) : Heedless v (failIf e) := by
  cases e with
  | none => exact heedless_give ()
  | some e => exact heedless_fail e

/-- An attempt of a heedless act is heedless. -/
theorem Heedless.attempt {x : Act α} (h : Heedless v x) : Heedless v (attempt x) := by
  intro s
  unfold Act.attempt
  rw [h s]

/-- Notes are heedless. -/
theorem heedless_note (n : Note) : Heedless v (note n) := fun s =>
  congrArg (Prod.mk (Except.ok ())) (s.note_vary n)

/-- Lines in the log are heedless. -/
theorem heedless_line (gravity : Gravity) (text : String) : Heedless v (line gravity text) :=
  heedless_note _

/-- The passing of time is heedless. -/
theorem heedless_pass (length : Int) : Heedless v (pass length) := fun _ => rfl

end

/-! ### Calls to the engine -/

/-- The creation is heedless. -/
theorem heedless_create (spec : Spec) (ordinal : Nat) : Heedless v (create spec ordinal) := by
  intro s
  have hid : idOf (s.vary v).box spec ordinal = idOf s.box spec ordinal := rfl
  have hfault : (s.vary v).box.createFault = s.box.createFault := rfl
  rw [create_eq, create_eq, hid, hfault]
  cases s.box.createFault with
  | some e => rfl
  | none => simp only [Stage.vary, List.append_assoc]

/-- The start is heedless. -/
theorem heedless_start (id : String) : Heedless v (start id) := by
  refine (heedless_note _).bind fun _ => .of_stage (fun _ => rfl) fun s => ?_
  exact (heedless_pass _).bind fun _ => (heedless_failIf _).bind fun _ => fun _ => rfl

/-- The status is heedless. -/
theorem heedless_status : Heedless v status :=
  .of_stage (fun _ => rfl) fun _ => (heedless_failIf _).bind fun _ => heedless_give _

/-- The inspection is heedless. -/
theorem heedless_inspect (spec : Spec) (id : String) : Heedless v (inspect spec id) :=
  (heedless_note _).bind fun _ => .of_stage (fun _ => rfl) fun _ =>
    (heedless_failIf _).bind fun _ => heedless_give _

/-- Commands are heedless. -/
theorem heedless_exec (id : String) (argv : List String) (user workdir : Option String) :
    Heedless v (exec id argv user workdir) := by
  intro s
  have htake : (s.vary v).box.takeExec argv =
      ((s.box.takeExec argv).1, (s.box.takeExec argv).2.vary v) :=
    s.box.takeExec_vary argv
  rw [exec_eq, exec_eq, htake, s.note_vary]
  -- The command is the same, and so is the box that is left, but for what is varied.
  rcases s.box.takeExec argv with ⟨_ | e, box⟩ <;> rfl

/-- Copies are heedless. -/
theorem heedless_copy (id : String) (p : Payload) : Heedless v (copy id p) :=
  (heedless_note _).bind fun _ => .of_stage (fun _ => rfl) fun _ =>
    (heedless_failIf _).bind fun _ => heedless_note _

/-- The removal is heedless of variations that keep it as it is. -/
theorem heedless_remove (hv : ∀ q, v.removal q = q) (id : String) : Heedless v (remove id) :=
  (heedless_note _).bind fun _ =>
    .of_stage (fun s => congrArg failIf (hv s.box.removeFault)) fun _ =>
    heedless_failIf _

end World.Act

/-! ### Steps -/

namespace Injection

open Slipway.World.Act (Heedless)

variable (t : Target) (c : Command)

/-- A wait is heedless: it reads the server and the box, and neither is varied. -/
theorem await_heedless (conditions : List Condition) (d : Deadline) :
    Heedless v (await t conditions d) := by
  intro s
  have hwait :
      Readiness.waitAll ⟨t.container, s.box.vary v, s.world.vary v, t.settings⟩ conditions =
      Readiness.waitAll ⟨t.container, s.box, s.world, t.settings⟩ conditions :=
    @Readiness.waitAll_of_looksLike ⟨t.container, s.box, s.world, t.settings⟩ _ (s.world.vary v)
      s.box.looksLike_vary rfl conditions
  unfold await World.Stage.vary
  simp only [hwait, List.append_assoc]

/-- The wait after a command is heedless. -/
theorem settle_heedless : Heedless v (settle t c) := by
  unfold settle
  split
  · exact Act.heedless_give ()
  · exact .of_stage (fun _ => rfl) fun _ => await_heedless t c.readiness _

/-- A free command is heedless. -/
theorem runFreely_heedless : Heedless v (runFreely t c) := by
  rw [runFreely_eq]
  exact (Act.heedless_exec _ _ _ _).attempt.bind fun r =>
    forgive_composes Act.heedless_composes Act.heedless_line fun e _ => Act.heedless_fail e

section
variable {t} (hd : t.deadline ≠ none)

include hd

/-- Against a deadline a sleep is taken in slices, whatever the clock can sleep at a stretch. -/
theorem sleepAfter_heedless (millis : Nat) : Heedless v (sleepAfter t c millis) := by
  unfold sleepAfter
  refine (Act.heedless_ofExcept _).bind fun length => ?_
  split
  · exact absurd ‹_› hd
  · refine .of_stage (fun _ => rfl) fun s => Act.Heedless.bind (fun _ => rfl) fun _ => ?_
    split
    · exact Act.heedless_fail _
    · exact Act.heedless_give ()

/-- A checked command is heedless if there is a deadline. Without one its pause depends on the
longest sleep of the world. -/
theorem runChecked_heedless (completion : Completion) : Heedless v (runChecked t c completion) := by
  rw [runChecked_eq]
  exact (Act.heedless_exec _ _ _ _).bind fun r =>
    hold_composes Act.heedless_composes (Act.heedless_failIf _) fun millis _ =>
      sleepAfter_heedless c hd millis

/-- So is any command. -/
theorem exec_heedless : Heedless v (exec t c) :=
  exec_composes Act.heedless_composes Act.heedless_line (fun _ => runFreely_heedless t c)
    (fun completion _ => runChecked_heedless c hd completion) (settle_heedless t c)

/-- So are steps. -/
theorem runSteps_heedless (steps : List Step) : Heedless v (runSteps t steps) :=
  runSteps_composes Act.heedless_composes (fun c _ => exec_heedless c hd) fun p =>
    (Act.heedless_line _ _).bind fun _ => Act.heedless_copy t.container.id p

/-- So are sources. -/
theorem runAll_heedless (sources : List Source) : Heedless v (runAll t sources) :=
  runAll_composes Act.heedless_composes fun _ _ =>
    (Act.heedless_ofExcept _).bind (runSteps_heedless hd)

end

end Injection

/-! ### Lifecycles -/

namespace Lifecycle

open Slipway.World.Act (Heedless)

/-- Entering a phase is heedless. -/
theorem enter_heedless (spec : Spec) (p : Phase) : Heedless v (enter spec p) := by
  have henter : Heedless v (Act.enter p) := fun _ => rfl
  exact henter.bind fun _ => .of_stage (fun _ => rfl) fun _ => Act.heedless_line _ _

/-- Starting and inspecting is heedless. -/
theorem start_heedless (spec : Spec) (id : String) : Heedless v (start spec id) := by
  refine (Act.heedless_start id).bind fun _ => Act.heedless_status.bind fun status => ?_
  split
  · exact Act.heedless_inspect spec id
  · exact Act.heedless_fail _

/-- A phase of commands is heedless under a deadline. -/
theorem runPhase_heedless {t : Injection.Target} (hd : t.deadline ≠ none) (spec : Spec) (p : Phase)
    (sources : List Source) : Heedless v (runPhase spec p t sources) :=
  runPhase_composes Act.heedless_composes (enter_heedless spec p)
    (Injection.runAll_heedless hd sources)

/-- Bringing a container up goes the same way whatever comes of its removal, and whatever is in the
boxes of other containers. -/
theorem bringUp_heedless (settings : Settings) (spec : Spec) (timeout : Option Binary64)
    (ordinal : Nat) : Heedless v (bringUp settings spec timeout ordinal) := by
  unfold bringUp
  refine (Act.heedless_create spec ordinal).bind fun id => (enter_heedless spec _).bind fun _ =>
    (start_heedless spec id).bind fun container => (enter_heedless spec _).bind fun _ =>
      .of_stage (fun _ => rfl) fun s => ?_
  have hd : some (Deadline.start s.now (timeoutOf settings spec timeout)) ≠ none :=
    Option.some_ne_none _
  exact (runPhase_heedless hd spec _ _).bind fun _ => (enter_heedless spec _).bind fun _ =>
    (Injection.await_heedless _ _ _).bind fun _ => (runPhase_heedless hd spec _ _).bind fun _ =>
      Act.heedless_give container

/-- Discarding is heedless of variations that keep the removal. -/
theorem discard_heedless (hv : ∀ q, v.removal q = q) (id : String) : Heedless v (discard id) := by
  unfold discard
  refine (Act.heedless_remove hv id).attempt.bind fun r => ?_
  split
  · exact Act.heedless_give ()
  · split
    · exact Act.heedless_fail _
    · exact Act.heedless_line _ _

/-- So is discarding what was created. -/
theorem discardCreated_heedless (hv : ∀ q, v.removal q = q) : Heedless v discardCreated := by
  refine .of_stage (fun _ => rfl) fun s => ?_
  split
  · exact Act.heedless_give ()
  · split
    · exact Act.heedless_give ()
    · exact discard_heedless hv _

/-- A lifecycle goes the same way whatever is in the boxes of other containers. -/
theorem run_heedless (hv : ∀ q, v.removal q = q) (settings : Settings) (spec : Spec)
    (timeout : Option Binary64) (ordinal : Nat) :
    Heedless v (run settings spec timeout ordinal) := by
  refine (bringUp_heedless settings spec timeout ordinal).attempt.bind fun r => ?_
  split
  · exact (enter_heedless spec _).bind fun _ => .of_stage (fun _ => rfl) fun _ =>
      Act.heedless_give _
  · refine (enter_heedless spec _).bind fun _ => (Act.heedless_line _ _).bind fun _ => ?_
    simp only
    split
    · exact (discardCreated_heedless hv).bind fun _ => .of_stage (fun _ => rfl) fun _ =>
        Act.heedless_give _
    · exact .of_stage (fun _ => rfl) fun _ => Act.heedless_give _
  · exact (discardCreated_heedless hv).bind fun _ => Act.heedless_fail _

end Lifecycle
end Slipway
