import Slipway.Proofs.Clock
import Slipway.Proofs.Lifecycle.Closing
import Slipway.Proofs.Lifecycle.Heedless
import Slipway.Proofs.Lifecycle.Punctual
import Slipway.Proofs.Lifecycle.Removal
import Slipway.Proofs.Readiness.Patience
import Slipway.Proofs.World.Interleaving

/-!
# `Slipway.Proofs.Lifecycle.Patience`: a longer timeout does no harm

A start that made its container ready makes it ready as well if it is given more time, and goes the
same way: with the same outcome, at the same time, and with the same notes but for the times that
requests wait (`run_patient`).

The two starts are compared step by step. `Act.Follows` says of two acts that if the first ends
well, then the second does, with the same value, on a stage that differs only in those times. Acts
that do not look at what was noted before follow themselves. What looks at the deadline are waits,
sleeps after commands and the waits that follow these, and each of them is followed by itself
against a longer deadline. -/

set_option autoImplicit false

namespace Slipway

open Slipway.World (Act Note Stage Trace)
open Slipway.World.Trace (TellsAlike)

/-! ### Stages and acts -/

/-- A stage without the times that requests wait for their answers. -/
def World.Stage.untimed (s : Stage) : Stage := { s with trace := s.trace.untimed }

/-- Stages are the same but for request times if their traces are. -/
theorem World.Stage.untimed_congr {s : Stage} {now : Int} {t t' : Trace}
    (h : t'.untimed = t.untimed) :
    ({ s with now := now, trace := t' } : Stage).untimed =
      ({ s with now := now, trace := t } : Stage).untimed := by
  simp only [untimed, h]

/-- Stages that differ in these times differ in what was noted. -/
theorem World.Stage.exists_trace_of_untimed {s s' : Stage} (h : s'.untimed = s.untimed) :
    ∃ t : Trace, s' = { s with trace := t } ∧ t.untimed = s.trace.untimed := by
  refine ⟨s'.trace, ?_, congrArg Stage.trace h⟩
  have hrest : ({ s'.untimed with trace := s'.trace } : Stage) =
      { s.untimed with trace := s'.trace } := by
    rw [h]
  exact hrest

/-- A stage is one on which nothing was noted, with all that was noted before. -/
theorem World.Stage.vary_following_nil (before : Trace) (s : Stage) :
    Stage.vary (.following before) { s with trace := [] } = { s with trace := before } := by
  show { s with trace := before ++ [] } = _
  rw [List.append_nil]

/-- Without request times, a stage that follows a trace has that trace first. -/
theorem World.Stage.untimed_vary_following (before : Trace) (s : Stage) :
    (s.vary (.following before)).untimed =
      { s with trace := before.untimed ++ s.trace.untimed } := by
  show { s with trace := (before ++ s.trace).untimed } = _
  rw [World.Trace.untimed_append]

/-- The time that a request waits is nothing that is told of a container. -/
theorem World.Trace.of_untimed (id : String) (t : Trace) : of id t.untimed = of id t := by
  induction t with
  | nil => rfl
  | cons e rest ih =>
    have hcons : Trace.untimed (e :: rest) =
        { e with note := e.note.untimed } :: Trace.untimed rest := rfl
    rw [hcons, of_cons, of_cons, ih]
    obtain ⟨time, note⟩ := e
    cases note <;> rfl

/-- Traces that are the same but for request times tell the same of every container. -/
theorem World.Trace.tellsAlike_of_untimed {t t' : Trace} (h : t'.untimed = t.untimed)
    (id : String) :
    TellsAlike id t' t :=
  tellsAlike_of_eq (by rw [← of_untimed, h, of_untimed])

namespace World.Act

/-- Whether an act that ends well is followed by another. -/
def Follows {α : Type} (x x' : Act α) : Prop :=
  ∀ s s' : Stage, s'.untimed = s.untimed → ∀ a t, x s = (.ok a, t) →
    ∃ t', x' s' = (.ok a, t') ∧ t'.untimed = t.untimed

section
variable {α β : Type}

/-- Following is kept by giving values and by going on. -/
theorem follows_relates : Relates fun _ x x' => Follows x x' where
  give a := by
    intro s s' hs b t hx
    cases hx
    exact ⟨s', rfl, hs⟩
  bind hx hf := by
    intro s s' hs b u hxf
    obtain ⟨a, t, hxs, hft⟩ := bind_eq_ok.mp hxf
    obtain ⟨t', hxs', ht⟩ := hx s s' hs a t hxs
    obtain ⟨u', hft', hu⟩ := hf a t t' ht b u hft
    exact ⟨u', (bind_of_ok hxs').trans hft', hu⟩

/-- Nothing has to follow an act that fails. -/
theorem follows_fail (e : Fault) (x' : Act α) :
    Follows (fail e) x' := fun _ _ _ _ _ hx => nomatch hx

/-- An act that does not look at what was noted before follows itself. -/
theorem follows_of_heedless {x : Act α} (h : ∀ before, Heedless (.following before) x) :
    Follows x x := by
  intro s s' hs a t hx
  obtain ⟨before, rfl, hbefore⟩ := Stage.exists_trace_of_untimed hs
  -- Both stages are the one on which nothing was noted, with something noted before.
  have hs : s = Stage.vary (.following s.trace) { s with trace := [] } :=
    (Stage.vary_following_nil s.trace s).symm
  rw [hs, h] at hx
  rw [← Stage.vary_following_nil, h]
  obtain ⟨ha, rfl⟩ := Prod.mk.inj hx
  refine ⟨_, congrArg (Prod.mk · _) ha, ?_⟩
  rw [Stage.untimed_vary_following, Stage.untimed_vary_following, hbefore]

end

end World.Act

/-! ### Steps -/

namespace Injection

open Slipway.World.Act (Follows)

section
variable {t : Target} {c : Command} {d d' : Deadline}

/-- A wait that ends well against a deadline does so against a longer one. -/
theorem await_follows {conditions : List Condition} (deadline : Option Deadline)
    (hconditions : ∀ cond ∈ conditions, .healthcheck ∉ cond.leaves) (h : d.Extends d') :
    Follows (await t conditions d) (await (t.withDeadline deadline) conditions d') := by
  intro s s' hs a u hwait
  obtain ⟨before, rfl, hbefore⟩ := World.Stage.exists_trace_of_untimed hs
  cases hfault : (ending t conditions d s).fault with
  -- A wait that fails is not followed.
  | some f =>
    rw [await_eq_error hfault] at hwait
    cases hwait
  | none =>
    have hmatch : (ending t conditions d s).Matches (ending t conditions d' s) :=
      Readiness.waitAll_extends hconditions h hfault
    rw [await_eq_ok hfault] at hwait
    cases hwait
    refine ⟨_, await_eq_ok (hmatch.fault.trans hfault), ?_⟩
    rw [← hmatch.stop]
    refine World.Stage.untimed_congr ?_
    rw [World.Trace.untimed_append, World.Trace.untimed_append, hbefore]
    exact congrArg (s.trace.untimed ++ ·) hmatch.trace

/-- Under a deadline a command settles by a wait, if it has conditions. -/
theorem settle_eq (hd : t.deadline = some d) (c : Command) :
    settle t c = if c.readiness.isEmpty then pure () else await t c.readiness d := by
  unfold settle
  rw [hd]
  rfl

/-- With more time a command settles as before. -/
theorem settle_follows (hd : t.deadline = some d)
    (hc : ∀ cond ∈ c.readiness, .healthcheck ∉ cond.leaves) (h : d.Extends d') :
    Follows (settle t c) (settle (t.withDeadline (some d')) c) := by
  have hd' : (t.withDeadline (some d')).deadline = some d' := rfl
  rw [settle_eq hd, settle_eq hd']
  split
  · exact Act.follows_relates.give ()
  · exact await_follows _ hc h

/-- A free command pays no heed to the time. -/
theorem runFreely_follows (t : Target) (c : Command) (deadline : Option Deadline) :
    Follows (runFreely t c) (runFreely (t.withDeadline deadline) c) := by
  rw [runFreely_eq, runFreely_eq]
  refine Act.follows_relates.bind ?_ fun r => ?_
  · exact Act.follows_of_heedless fun _ => (Act.heedless_exec _ _ _ _).attempt
  · exact forgive_relates Act.follows_relates _
      (fun _ _ => Act.follows_of_heedless fun _ => Act.heedless_line _ _) fun e _ =>
        Act.follows_fail e _

/-- A sleep that fits into what remains of a deadline fits into what remains of a longer one. -/
theorem sleepAfter_follows (hd : t.deadline = some d) (h : d.Extends d') (millis : Nat) :
    Follows (sleepAfter t c millis) (sleepAfter (t.withDeadline (some d')) c millis) := by
  have hd' : (t.withDeadline (some d')).deadline = some d' := rfl
  intro s s' hs a u hsleep
  obtain ⟨before, rfl, hbefore⟩ := World.Stage.exists_trace_of_untimed hs
  cases hlength : Readiness.Delay.lengthOf millis with
  | error e =>
    unfold sleepAfter at hsleep
    rw [hlength] at hsleep
    cases hsleep
  | ok length =>
    rw [sleepAfter_eq hd hlength] at hsleep
    -- A pause that fits into the time fits into more of it.
    by_cases hlong : d.remaining s.now < length
    · rw [if_pos hlong] at hsleep
      cases hsleep
    · rw [if_neg hlong] at hsleep
      cases hsleep
      have hleft := h.remaining_le s.now
      rw [sleepAfter_eq hd' hlength, if_neg (show ¬ d'.remaining s.now < length by omega),
        h.sleep_eq (Int.not_lt.mp hlong)]
      exact ⟨_, rfl, World.Stage.untimed_congr hbefore⟩

/-- With more time a checked command ends as before. -/
theorem runChecked_follows (hd : t.deadline = some d) (h : d.Extends d') (completion : Completion) :
    Follows (runChecked t c completion) (runChecked (t.withDeadline (some d')) c completion) := by
  rw [runChecked_eq, runChecked_eq]
  refine Act.follows_relates.bind ?_ fun r => ?_
  · exact Act.follows_of_heedless fun _ => Act.heedless_exec _ _ _ _
  · exact hold_relates Act.follows_relates _
      (Act.follows_of_heedless fun _ => Act.heedless_failIf _)
      fun millis _ => sleepAfter_follows hd h millis

/-- So does any command. -/
theorem exec_follows (hd : t.deadline = some d)
    (hc : ∀ cond ∈ c.readiness, .healthcheck ∉ cond.leaves) (h : d.Extends d') :
    Follows (exec t c) (exec (t.withDeadline (some d')) c) :=
  exec_relates Act.follows_relates _
    (fun _ _ => Act.follows_of_heedless fun _ => Act.heedless_line _ _)
    (fun _ => runFreely_follows t c _) (fun completion _ => runChecked_follows hd h completion)
    (settle_follows hd hc h)

/-- So do steps. -/
theorem runSteps_follows {steps : List Step} (hd : t.deadline = some d)
    (hsteps : ∀ c, .command c ∈ steps → ∀ cond ∈ c.readiness, .healthcheck ∉ cond.leaves)
    (h : d.Extends d') : Follows (runSteps t steps) (runSteps (t.withDeadline (some d')) steps) :=
  runSteps_relates Act.follows_relates _ (fun c hc => exec_follows hd (hsteps c hc) h) fun p =>
    Act.follows_of_heedless fun _ => (Act.heedless_line _ _).bind fun _ => Act.heedless_copy _ p

/-- Steps that end well against a deadline do so against a longer one, if they wait for no
healthcheck. -/
theorem runAll_follows {sources : List Source} (hd : t.deadline = some d)
    (hsources : ∀ source ∈ sources, ∀ steps, source.expand t.container = .ok steps →
      ∀ c, .command c ∈ steps → ∀ cond ∈ c.readiness, .healthcheck ∉ cond.leaves)
    (h : d.Extends d') :
    Follows (runAll t sources) (runAll (t.withDeadline (some d')) sources) := by
  refine runAll_relates Act.follows_relates _ fun source hsource => ?_
  -- What a factory makes is told by the container alone, and that is the same.
  cases hexpand : source.expand t.container with
  | error e => exact Act.follows_fail e _
  | ok steps => exact runSteps_follows hd (hsources source hsource steps hexpand) h

end

end Injection

/-! ### Lifecycles -/

/-- A spec that waits for no healthcheck, at any depth. -/
def Spec.AsksNoHealth (spec : Spec) : Prop := ∀ c, spec.WaitsFor c → .healthcheck ∉ c.leaves

namespace Lifecycle

open Slipway.World.Act (Follows)

/-- Entering a phase pays no heed to the time. -/
theorem enter_follows (spec : Spec) (p : Phase) : Follows (enter spec p) (enter spec p) :=
  Act.follows_of_heedless fun _ => enter_heedless spec p

section
variable {settings : Settings} {spec : Spec} {timeout timeout' : Option Binary64} {ordinal : Nat}
variable {p : Container × Deadline} {s t : Stage} {d' : Deadline}

/-- With more time a phase of commands ends as before. -/
theorem runPhase_follows {sources : List Source} (phase : Phase)
    (hsources : ∀ source ∈ sources, ∀ steps, source.expand p.1 = .ok steps →
      ∀ c, .command c ∈ steps → ∀ cond ∈ c.readiness, .healthcheck ∉ cond.leaves)
    (h : p.2.Extends d') :
    Follows (runPhase spec phase (targetOf settings p) sources)
      (runPhase spec phase (targetOf settings (p.1, d')) sources) :=
  runPhase_relates Act.follows_relates _ _ (enter_follows spec phase)
    (Injection.runAll_follows rfl hsources h)

/-- All that follows the start ends well against a longer deadline as well. -/
theorem afterStart_follows (hspec : spec.AsksNoHealth) (h : p.2.Extends d') :
    Follows (afterStart settings spec p) (afterStart settings spec (p.1, d')) := by
  have hsteps : ∀ source ∈ spec.execBeforeReady ++ spec.execAfterStart, ∀ steps,
      source.expand p.1 = .ok steps → ∀ c, .command c ∈ steps → ∀ cond ∈ c.readiness,
        .healthcheck ∉ cond.leaves :=
    fun source hsource steps hexpand c hc cond hcond =>
      hspec cond (.inr ⟨source, hsource, p.1, steps, c, hexpand, hc, hcond⟩)
  -- Commands, evaluation, wait, commands: each follows, and so do all together.
  unfold afterStart
  refine Act.follows_relates.bind (runPhase_follows _
    (fun source hs => hsteps source (List.mem_append_left _ hs)) h) fun _ => ?_
  refine Act.follows_relates.bind (enter_follows spec _) fun _ => ?_
  refine Act.follows_relates.bind (Injection.await_follows (some d')
    (fun cond hc => hspec cond (.inl hc)) h) fun _ => ?_
  exact Act.follows_relates.bind (runPhase_follows _
    (fun source hs => hsteps source (List.mem_append_right _ hs)) h) fun _ =>
      Act.follows_relates.give p.1

/-- Until a container has been started nothing depends on the timeout. -/
theorem started_of_timeout (h : started settings spec timeout ordinal s = (.ok p, t))
    (timeout' : Option Binary64) :
    started settings spec timeout' ordinal s =
      (.ok (p.1, .start t.now (timeoutOf settings spec timeout')), t) := by
  obtain ⟨id, u, hcreated, h⟩ := Act.bind_eq_ok.mp h
  obtain ⟨c, v, hstart, h⟩ := Act.bind_eq_ok.mp h
  obtain ⟨_, w, henter, h⟩ := Act.bind_eq_ok.mp h
  cases h
  exact (Act.bind_of_ok hcreated).trans ((Act.bind_of_ok hstart).trans (Act.bind_of_ok henter))

/-- A container that was brought up in time is brought up in the same way if there is more time. -/
theorem bringUp_patient {c : Container} (hspec : spec.AsksNoHealth)
    (hle : Clock.ofSeconds (timeoutOf settings spec timeout) ≤
      Clock.ofSeconds (timeoutOf settings spec timeout'))
    (h : bringUp settings spec timeout ordinal s = (.ok c, t)) :
    ∃ t', bringUp settings spec timeout' ordinal s = (.ok c, t') ∧ t'.untimed = t.untimed := by
  rw [bringUp_eq_afterStart] at h
  obtain ⟨p, u, hstarted, h⟩ := Act.bind_eq_ok.mp h
  -- Both deadlines start at the same moment, and the later one is longer.
  have hextends : p.2.Extends (.start u.now (timeoutOf settings spec timeout')) := by
    rw [started_deadline hstarted]
    exact ⟨rfl, rfl, Int.add_le_add_left hle u.now⟩
  have hfollows : Follows (afterStart settings spec p) (afterStart settings spec (p.1, _)) :=
    afterStart_follows hspec hextends
  obtain ⟨t', hafter, ht⟩ := hfollows u u rfl c t h
  rw [bringUp_eq_afterStart]
  exact ⟨t', (Act.bind_of_ok (started_of_timeout hstarted timeout')).trans hafter, ht⟩

/-- A lifecycle that has brought up its container ends on the stage on which it did. -/
theorem close_follows (c : Container) :
    Follows (close settings spec (.ok c)) (close settings spec (.ok c)) :=
  Act.follows_of_heedless fun _ => (enter_heedless spec .ready).bind fun _ =>
    .of_stage (fun _ => rfl) fun _ => Act.heedless_give _

/-- A start that makes its container ready as another does: with the same outcome, at the same time,
and with the same notes but for the times that requests wait. -/
structure ReadyAlike (r r' : Finished) : Prop where
  isReady : IsReady r'
  outcome : r'.1 = r.1
  now : r'.2.now = r.2.now
  trace : r'.2.trace.untimed = r.2.trace.untimed
  /-- Every container is told the same of, at the same times. -/
  tells : ∀ id, TellsAlike id r'.2.trace r.2.trace

/-- A start that made its container ready brought it up. -/
theorem bringUp_of_isReady (h : IsReady (run settings spec timeout ordinal s)) :
    ∃ c u, bringUp settings spec timeout ordinal s = (.ok c, u) := by
  cases hup : bringUp settings spec timeout ordinal s with
  | mk r u =>
    cases r with
    | ok c => exact ⟨c, u, rfl⟩
    | error e =>
      obtain ⟨r, t, phases, hrun, -, ho, -⟩ := run_of_error hup
      obtain ⟨o, hr, hready⟩ := h
      rw [hrun] at hr
      obtain ⟨f, -, rfl⟩ := ho o hr
      cases hready

/-- A timeout that is not zero is taken as it is. -/
theorem timeoutOf_of_not_isZero {x : Binary64} (h : x.isZero = false) :
    timeoutOf settings spec (some x) = x := by
  simp [timeoutOf, nonzero, Option.filter, h]

/-- A longer timeout never breaks a start that worked. -/
theorem run_patient (hspec : spec.AsksNoHealth) {x y : Binary64} (hx : x.IsPositive)
    (hformat : x.InFormat) (hle : x.Le y)
    (h : IsReady (run settings spec (some x) ordinal s)) :
    ReadyAlike (run settings spec (some x) ordinal s) (run settings spec (some y) ordinal s) := by
  obtain ⟨c, u, hup⟩ := bringUp_of_isReady h
  -- Neither timeout is zero, so each is the one that counts.
  have hseconds : Clock.ofSeconds (timeoutOf settings spec (some x)) ≤
      Clock.ofSeconds (timeoutOf settings spec (some y)) := by
    rw [timeoutOf_of_not_isZero hx.isZero_eq, timeoutOf_of_not_isZero (hx.isZero_eq_of_le hle)]
    exact Clock.ofSeconds_mono hx hformat hle
  obtain ⟨u', hup', hu⟩ := bringUp_patient hspec hseconds hup
  obtain ⟨o, hr, hready⟩ := h
  cases hrun : run settings spec (some x) ordinal s with
  | mk r t =>
    rw [hrun] at hr
    cases hr
    rw [run_eq_close hup] at hrun
    obtain ⟨t', hclose, ht⟩ := close_follows c u u' hu o t hrun
    rw [run_eq_close hup', hclose]
    have hnow : t'.untimed.now = t.untimed.now := congrArg Stage.now ht
    have htrace : t'.trace.untimed = t.trace.untimed := congrArg Stage.trace ht
    exact ⟨⟨o, rfl, hready⟩, rfl, hnow, htrace, World.Trace.tellsAlike_of_untimed htrace⟩

end

/-- A spec that sleeps after a command and then waits for an answer. -/
def answering : Spec :=
  { Spec.ofImage "gitea" "1.22" with
    exposedPorts := [.tcp 8000]
    execBeforeReady := [.step (.command ⟨["migrate"], some (.sleep 200), [], none, none, none⟩)]
    waitFor := [.http (.get "/" (.tcp 8000))] }

/-- A world in which the answer comes late. -/
def unhurried : World :=
  { World.quiet with
    http := [("http://localhost:40000/", [⟨0, .answer 200 "" (500 * Clock.millisecond)⟩])] }

/-- The start has one second, or all the time of the world. -/
theorem run_patient_of_answering :
    answering.AsksNoHealth ∧ (Settings.secondsOf 1).IsPositive ∧ (Settings.secondsOf 1).InFormat ∧
      (Settings.secondsOf 1).Le (.infinite false) ∧
      IsReady (run .usual answering (some (Settings.secondsOf 1)) 1 (.ready unhurried .quiet 0)) ∧
      ReadyAlike (run .usual answering (some (Settings.secondsOf 1)) 1 (.ready unhurried .quiet 0))
        (run .usual answering (some (.infinite false)) 1 (.ready unhurried .quiet 0)) := by
  have hspec : answering.AsksNoHealth := by
    -- Its only wait and its only command ask nothing about health.
    rintro c (hc | ⟨source, hsource, container, steps, command, hexpand, hcommand, hc⟩)
    · rw [List.mem_singleton.mp hc]
      intro hleaf
      cases List.mem_singleton.mp hleaf
    · rw [List.mem_singleton.mp hsource] at hexpand
      cases hexpand
      cases List.mem_singleton.mp hcommand
      cases hc
  have hpositive : (Settings.secondsOf 1).IsPositive := by decide +kernel
  have hformat : (Settings.secondsOf 1).InFormat := Binary64.inFormat_ofRatio false 1 Nat.one_pos
  have hle : (Settings.secondsOf 1).Le (.infinite false) := by decide +kernel
  have hready : IsReady (run .usual answering (some (Settings.secondsOf 1)) 1
      (.ready unhurried .quiet 0)) := by decide +kernel
  exact ⟨hspec, hpositive, hformat, hle, hready, run_patient hspec hpositive hformat hle hready⟩

end Lifecycle
end Slipway
