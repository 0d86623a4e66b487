import Slipway.Proofs.Lifecycle.Chronicle
import Slipway.Proofs.Lifecycle.Pace
import Slipway.Proofs.Lifecycle.Raising

/-!
# `Slipway.Proofs.Lifecycle.Punctual`: a lifecycle ends in time, but for its commands

The deadline of a lifecycle spans all that follows the start. Waits and sleeps keep to it, but a
command takes the time that it takes. So a lifecycle ends by its deadline and the time of its
commands, however many steps and conditions it has (`run_ends_in_time`). It does end: with positive
intervals no wait polls without end.

The deadline is not looked at when a command has ended. So a lifecycle can become ready after its
deadline, but only if a command ran beyond it (`ready_in_time`).

What is called the limit here is the deadline and the least time that a request waits. Beyond that,
every timed wait takes one overshoot more than it was asked to. Of these there are as many as there
are commands, and one for the wait of the lifecycle. -/

set_option autoImplicit false

namespace Slipway

open Slipway.World (Act Note Stage)
open Slipway.Readiness (HasPositiveInterval)

namespace Lifecycle

/-! ### Time -/

/-- The time that a started container is given, with the least time that a request waits. A timeout
that is negative gives none. -/
def allowance (settings : Settings) (spec : Spec) (timeout : Option Binary64) : Int :=
  max 0 (Clock.ofSeconds (timeoutOf settings spec timeout) + Readiness.Http.leastTimeout)

section
variable {settings : Settings} {spec : Spec} {timeout : Option Binary64} {ordinal : Nat}
variable {s u : Stage} {p : Container × Deadline}

/-- The limit is that of a deadline that is fresh when the container has been started. -/
theorem started_limit (h : started settings spec timeout ordinal s = (.ok p, u)) :
    max u.now p.2.limit = u.now + allowance settings spec timeout := by
  have hlimit : p.2.limit =
      u.now + Clock.ofSeconds (timeoutOf settings spec timeout) + Readiness.Http.leastTimeout := by
    rw [started_deadline h]
    rfl
  rw [hlimit, allowance]
  omega

/-- Closing and opening tell of no commands. -/
theorem run_paced (hs : s.trace = []) (h : started settings spec timeout ordinal s = (.ok p, u)) :
    ∃ more v, u.Paced p.2.limit Clock.overshoot v more ∧
      (run settings spec timeout ordinal s).2.now = v.now ∧
      (run settings spec timeout ordinal s).2.trace.commands = more.commands ∧
      ∀ x ∈ more, x ∈ (run settings spec timeout ordinal s).2.trace := by
  obtain ⟨ended, phases, hcloses⟩ := run_closes settings spec timeout ordinal s
  obtain ⟨more, hpaced⟩ := afterStart_paces settings spec p u
  have hup : bringUp settings spec timeout ordinal s = afterStart settings spec p u := by
    rw [bringUp_eq_afterStart]
    exact Act.bind_of_ok h
  rw [hup] at hcloses
  -- Neither the opening nor the closing runs a command.
  have hclosing := hcloses.onward.commands_eq fun _ _ _ _ => id
  have hopening := (started_opening h).commands_eq fun _ _ _ _ => id
  refine ⟨more, _, hpaced, hcloses.now, ?_, fun x hx => hcloses.onward.mem_trace ?_⟩
  · rw [hclosing, hpaced.trace, World.Trace.commands_append, hopening, hs]
    rfl
  · rw [hpaced.trace]
    exact List.mem_append_right u.trace hx

/-- When a lifecycle ends that has started its container, and who is to blame if it is late. -/
theorem run_now_le (hs : s.trace = []) (h : started settings spec timeout ordinal s = (.ok p, u)) :
    let t := (run settings spec timeout ordinal s).2
    let spare := (t.trace.commands.length + 1) * Clock.overshoot
    t.now ≤ u.now + allowance settings spec timeout + s.box.timeOf t.trace.commands + spare ∧
      (u.now + allowance settings spec timeout + spare < t.now →
        ∃ x ∈ t.trace, s.box.Overruns p.2.limit x) := by
  obtain ⟨more, v, hpaced, hnow, hcommands, hmem⟩ := run_paced hs h
  have hbox : u.box = s.box := started_box h
  have hlimit := started_limit h
  -- Each command may add an overshoot, and so may the wait.
  have hspare : more.spare Clock.overshoot = (more.commands.length + 1) * Clock.overshoot := by
    rw [World.Trace.spare, Int.add_mul]
    omega
  have hle := hpaced.le_now
  rw [hbox, hlimit, hspare] at hle
  simp only [hnow, hcommands]
  refine ⟨by omega, fun hlate => ?_⟩
  obtain ⟨x, hx, hover⟩ := hpaced.late (by rw [hlimit, hspare]; exact hlate)
  exact ⟨x, hmem x hx, hbox ▸ hover⟩

end

end Lifecycle

/-! ### Waits that go on -/

/-- Whether a condition is one that a lifecycle may wait for: its own, or that of a command. -/
def Spec.WaitsFor (spec : Spec) (c : Condition) : Prop :=
  c ∈ spec.waitFor ∨
    ∃ source ∈ spec.execBeforeReady ++ spec.execAfterStart, ∃ container steps command,
      source.expand container = .ok steps ∧ .command command ∈ steps ∧ c ∈ command.readiness

/-- Whether time is to go by between any two questions of the waits of a spec. -/
def Spec.HasPositiveIntervals (settings : Settings) (spec : Spec) : Prop :=
  ∀ c, spec.WaitsFor c → ∀ l ∈ c.leaves, HasPositiveInterval settings l

/-- A spec whose waits have positive intervals polls nowhere without end, unless a factory raises
that defect. -/
theorem Spec.HasPositiveIntervals.raisesOnly {settings : Settings} {spec : Spec}
    (h : spec.HasPositiveIntervals settings)
    (hfactories : ∀ source ∈ spec.execBeforeReady ++ spec.execAfterStart, ∀ container,
      source.expand container ≠ .error (.defect .stalled)) :
    spec.RaisesOnly (· ≠ .defect .stalled) settings := by
  have hcondition : ∀ c, spec.WaitsFor c → c.RaisesOnly (· ≠ .defect .stalled) settings := by
    rintro c hc l hl scene rfl f hrefuses rfl
    exact hrefuses.not_hasPositiveInterval (h c hc l hl)
  have hsource : ∀ source ∈ spec.execBeforeReady ++ spec.execAfterStart,
      source.RaisesOnly (· ≠ .defect .stalled) settings := by
    intro source hmem
    refine ⟨fun container f hf hstalled => hfactories source hmem container (hstalled ▸ hf), ?_⟩
    intro container steps hsteps c hc
    -- A pause never stalls; a condition does only with an interval that is not positive.
    refine ⟨fun millis _ f hf hstalled => ?_, fun r hr => ?_⟩
    · subst hstalled
      unfold Readiness.Delay.lengthOf at hf
      split at hf <;> cases hf
    · exact hcondition r (.inr ⟨source, hmem, container, steps, c, hsteps, hc, hr⟩)
  exact {
    waitFor := fun c hc => hcondition c (.inl hc)
    execBeforeReady := fun source hs => hsource source (List.mem_append_left _ hs)
    execAfterStart := fun source hs => hsource source (List.mem_append_right _ hs) }

namespace Lifecycle

/-! ### Lifecycles in time -/

/-- Every lifecycle ends, and no later than its deadline and its commands allow. -/
theorem run_ends_in_time {settings : Settings} {spec : Spec} {world : World} {box : World.Box}
    (timeout : Option Binary64) (ordinal : Nat) (now : Int)
    (hpositive : spec.HasPositiveIntervals settings)
    (hfactories : ∀ source ∈ spec.execBeforeReady ++ spec.execAfterStart, ∀ container,
      source.expand container ≠ .error (.defect .stalled))
    (hbox : box.RaisesOnly (· ≠ .defect .stalled))
    (hworld : world.RaisesOnly (· ≠ .defect .stalled)) :
    let r := run settings spec timeout ordinal (.ready world box now)
    r.1 ≠ .error (.defect .stalled) ∧
      (∀ c, spec.WaitsFor c → ∀ l ∈ c.leaves, ∀ scene : Readiness.Scene, scene.settings = settings →
        scene.box.RaisesOnly (· ≠ .defect .stalled) → scene.world = world →
        ∀ d t, (Readiness.wait scene l d t).fault ≠ some (.defect .stalled)) ∧
      ∀ p u, started settings spec timeout ordinal (.ready world box now) = (.ok p, u) →
        r.2.now ≤ u.now + allowance settings spec timeout + box.timeOf r.2.trace.commands
          + (r.2.trace.commands.length + 1) * Clock.overshoot := by
  have hfailure : ∀ f, Fault.failure f ≠ .defect .stalled := nofun
  refine ⟨fun hstalled => ?_, ?_, fun p u hstarted => ?_⟩
  · have hraises := run_raises hfailure (hpositive.raisesOnly hfactories) timeout ordinal
      (.ready world box now) ⟨hbox, hworld⟩
    exact hraises.1 _ hstalled rfl
  · rintro c hc l hl scene rfl hscene rfl d t hstalled
    -- The world does not raise that defect, so the wait itself would have.
    have hraised := Readiness.stalled_of_leaf (Condition.isLeaf_of_mem_leaves hl)
      (hpositive c hc l hl) hstalled rfl
    exact hraised.kind hscene hworld rfl
  · exact (run_now_le rfl hstarted).1

/-- A spec with a command before it is ready and a healthcheck to wait for. -/
def migratingAndHealthy : Spec := { migrating with waitFor := [.healthcheck] }

/-- A box in which the command takes two seconds. The healthcheck turns good meanwhile. -/
def slow : World.Box :=
  { World.Box.quiet with
    execs := [.exiting ["migrate"] 0 (2 * Clock.second) none]
    health := [⟨0, .ok (some "starting")⟩, ⟨1500 * Clock.millisecond, .ok (some "healthy")⟩] }

/-- A timeout of one second. -/
def oneSecond : Option Binary64 := some (Settings.secondsOf 1)

/-- A command of two seconds, and a timeout of one. -/
theorem run_ends_in_time_of_slow :
    migratingAndHealthy.HasPositiveIntervals .usual ∧
      (∀ source ∈ migratingAndHealthy.execBeforeReady ++ migratingAndHealthy.execAfterStart,
        ∀ container, source.expand container ≠ .error (.defect .stalled)) ∧
      slow.RaisesOnly (· ≠ .defect .stalled) ∧ World.quiet.RaisesOnly (· ≠ .defect .stalled) ∧
      ∃ p u, started .usual migratingAndHealthy oneSecond 1 (.ready .quiet slow 0) = (.ok p, u) ∧
        (run .usual migratingAndHealthy oneSecond 1 (.ready .quiet slow 0)).2.now ≤
          u.now + 3010 * Clock.millisecond + 3 * Clock.overshoot := by
  have hsources :
      ∀ source ∈ migratingAndHealthy.execBeforeReady ++ migratingAndHealthy.execAfterStart,
      source = .step (.command (.checked ["migrate"])) := fun source hs => List.mem_singleton.mp hs
  -- Its only condition is the healthcheck, and its command has none.
  have hpositive : migratingAndHealthy.HasPositiveIntervals .usual := by
    rintro c (hc | ⟨source, hs, container, steps, command, hsteps, hcommand, hc⟩) l hl
    · rw [List.mem_singleton.mp hc] at hl
      rw [List.mem_singleton.mp hl]
      show 0 < Clock.ofSeconds Settings.usual.healthPollInterval
      decide
    · rw [hsources source hs] at hsteps
      cases hsteps
      cases List.mem_singleton.mp hcommand
      cases hc
  have hfactories : ∀ source ∈ migratingAndHealthy.execBeforeReady ++
      migratingAndHealthy.execAfterStart, ∀ container,
      source.expand container ≠ .error (.defect .stalled) := by
    intro source hs container
    rw [hsources source hs]
    exact nofun
  have hbox : slow.RaisesOnly (· ≠ .defect .stalled) := by
    refine { World.Box.quiet_raisesOnly with
      health := fun p hp f hf => ?_
      execs := fun e he f hf => ?_ }
    · simp only [slow, List.mem_cons, List.not_mem_nil, or_false] at hp
      rcases hp with rfl | rfl <;> cases hf
    · rw [List.mem_singleton.mp he] at hf
      cases hf
  obtain ⟨-, -, hends⟩ := run_ends_in_time oneSecond 1 0 hpositive hfactories hbox
    World.quiet_raisesOnly
  refine ⟨hpositive, hfactories, hbox, World.quiet_raisesOnly, ?_⟩
  have htime : let r := run .usual migratingAndHealthy oneSecond 1 (.ready .quiet slow 0)
      allowance .usual migratingAndHealthy oneSecond + slow.timeOf r.2.trace.commands
        + (r.2.trace.commands.length + 1) * Clock.overshoot =
          3010 * Clock.millisecond + 3 * Clock.overshoot := by decide +kernel
  have hok : (started .usual migratingAndHealthy oneSecond 1
      (.ready .quiet slow 0)).1.toOption.isSome = true := by decide +kernel
  cases hstarted : started .usual migratingAndHealthy oneSecond 1 (.ready .quiet slow 0) with
  | mk r u =>
    rw [hstarted] at hok
    cases r with
    | error e => cases hok
    | ok p =>
      have hle := hends p u hstarted
      simp only at htime
      exact ⟨p, u, rfl, by omega⟩

/-- A lifecycle becomes ready in time, unless a command ran beyond its limit. -/
theorem ready_in_time {settings : Settings} {spec : Spec} {timeout : Option Binary64}
    {ordinal : Nat}
    {world : World} {box : World.Box} {now : Int} {o : Outcome} {t : Stage}
    (h : run settings spec timeout ordinal (.ready world box now) = (.ok o, t))
    (hready : o.phase = .ready) :
    ∃ p u, started settings spec timeout ordinal (.ready world box now) = (.ok p, u) ∧
      (t.now ≤ u.now + allowance settings spec timeout
          + (t.trace.commands.length + 1) * Clock.overshoot ∨
        ∃ x ∈ t.trace, box.Overruns p.2.limit x) := by
  -- A lifecycle that is ready has been brought up, and so started.
  obtain ⟨p, u, hstarted⟩ : ∃ p u,
      started settings spec timeout ordinal (.ready world box now) = (.ok p, u) := by
    cases hup : bringUp settings spec timeout ordinal (.ready world box now) with
    | mk r v =>
      cases r with
      | ok c =>
        rw [bringUp_eq_afterStart] at hup
        obtain ⟨p, u, hstarted, -⟩ := Act.bind_eq_ok.mp hup
        exact ⟨p, u, hstarted⟩
      | error e =>
        obtain ⟨r, t, phases, hrun, -, ho, -⟩ := run_of_error hup
        rw [h] at hrun
        cases hrun
        obtain ⟨f, -, rfl⟩ := ho o rfl
        cases hready
  have hblame := (run_now_le rfl hstarted).2
  rw [h] at hblame
  refine ⟨p, u, hstarted, ?_⟩
  by_cases hlate : u.now + allowance settings spec timeout
      + (t.trace.commands.length + 1) * Clock.overshoot < t.now
  · exact .inr (hblame hlate)
  · exact .inl (by omega)

/-- The command of the slow box is over a second after the deadline, and the lifecycle becomes
ready. -/
theorem ready_in_time_of_slow :
    ∃ o t, run .usual migratingAndHealthy oneSecond 1 (.ready .quiet slow 0) = (.ok o, t) ∧
      o.phase = .ready ∧
      allowance .usual migratingAndHealthy oneSecond
        + (t.trace.commands.length + 1) * Clock.overshoot < t.now ∧
      ∃ p u, started .usual migratingAndHealthy oneSecond 1 (.ready .quiet slow 0) = (.ok p, u) ∧
        u.now = 0 ∧ ∃ x ∈ t.trace, slow.Overruns p.2.limit x := by
  have hphase : (run .usual migratingAndHealthy oneSecond 1 (.ready .quiet slow 0)).1.toOption.map
      Outcome.phase = some .ready := by decide +kernel
  have hlate : let t := (run .usual migratingAndHealthy oneSecond 1 (.ready .quiet slow 0)).2
      allowance .usual migratingAndHealthy oneSecond
        + (t.trace.commands.length + 1) * Clock.overshoot < t.now := by decide +kernel
  have hnow : (started .usual migratingAndHealthy oneSecond 1 (.ready .quiet slow 0)).2.now =
      0 := by
    decide +kernel
  cases hrun : run .usual migratingAndHealthy oneSecond 1 (.ready .quiet slow 0) with
  | mk r t =>
    rw [hrun] at hphase hlate
    cases r with
    | error e => cases hphase
    | ok o =>
      have hready : o.phase = .ready := Option.some.inj hphase
      -- It is too late for the first way to be ready, so the command has overrun.
      obtain ⟨p, u, hstarted, hin⟩ := ready_in_time hrun hready
      rw [hstarted] at hnow
      simp only at hnow hlate
      refine ⟨o, t, rfl, hready, hlate, p, u, hstarted, hnow, hin.resolve_left ?_⟩
      omega

end Lifecycle
end Slipway
