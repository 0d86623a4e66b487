import Slipway.Proofs.Lifecycle.Removal
import Slipway.Proofs.Readiness.Conjunction

/-!
# `Slipway.Proofs.Lifecycle.Waiting`: what a lifecycle without steps comes to

A lifecycle that runs no steps is nothing but a start and a wait. If it starts, it becomes ready
exactly if the wait ends well (`run_isReady_iff`), and the wait is told by the leaves of its
conditions. `waits_by_leaves` puts the two together: what waits for several conditions come to, and
what lifecycles come to, is what their leaves come to alone. -/

set_option autoImplicit false

namespace Slipway.Lifecycle

open Slipway.Readiness (Scene Conjunctive wait waitAll)
open Slipway.World (Act Stage)

section
variable {settings : Settings} {spec : Spec} {timeout : Option Binary64} {ordinal : Nat}
variable {s t : Stage} {p : Container × Deadline}

/-- A lifecycle without steps that has started becomes ready if its wait ends well. -/
theorem run_isReady_iff (hbefore : spec.execBeforeReady = []) (hafter : spec.execAfterStart = [])
    (h : started settings spec timeout ordinal s = (.ok p, t)) :
    IsReady (run settings spec timeout ordinal s) ↔
      (waitAll ⟨p.1, t.box, t.world, settings⟩ spec.waitFor p.2 t.now).fault = none := by
  obtain ⟨v, henter, hbox, hnow, honward⟩ := enter_eq spec .evaluating t
  have hworld : v.world = t.world := (honward (fun _ => True) fun _ => trivial).world
  -- Without commands the wait follows the start at once.
  have hprepared : prepared settings spec timeout ordinal s = (.ok p, v) := by
    refine (Act.bind_of_ok h).trans ?_
    rw [hbefore]
    have hnothing : runPhase spec .preReadyExec (targetOf settings p) [] t = (.ok (), t) := rfl
    exact (Act.bind_of_ok hnothing).trans (Act.bind_of_ok henter)
  have hending : Injection.ending (targetOf settings p) spec.waitFor p.2 v =
      waitAll ⟨p.1, t.box, t.world, settings⟩ spec.waitFor p.2 t.now := by
    rw [← hbox, ← hworld, ← hnow]
    rfl
  rw [← hending]
  cases hwait : (Injection.ending (targetOf settings p) spec.waitFor p.2 v).fault with
  | none =>
    obtain ⟨c, u, hup⟩ : ∃ c u, bringUp settings spec timeout ordinal s = (.ok c, u) := by
      rw [bringUp_eq, Act.bind_of_ok (evaluated_of_wait hprepared hwait), hafter]
      exact ⟨_, _, rfl⟩
    obtain ⟨w, hrun, -⟩ := run_of_ok hup
    rw [hrun]
    exact ⟨fun _ => rfl, fun _ => ⟨_, rfl, rfl⟩⟩
  -- A wait that fails ends the lifecycle, and not as ready.
  | some f =>
    obtain ⟨r, u, phases, hrun, -, ho, -⟩ := run_of_error (bringUp_of_wait hprepared hwait)
    rw [hrun]
    refine ⟨fun ⟨o, hr, hready⟩ => ?_, nofun⟩
    obtain ⟨f, -, rfl⟩ := ho o hr
    cases hready

end

/-- What waits and lifecycles come to is what the leaves of their conditions come to, each waited
for alone against the same deadline from the same moment. The deadline of a lifecycle is never
cancelled from outside, so nothing is asked of its leaves but that they raise nothing else. -/
theorem waits_by_leaves :
    (∀ (scene : Scene) (conditions : List Condition) (d : Deadline) (now : Int),
      scene.LeavesReadinessToWaits →
      (∀ c ∈ Condition.leavesAll conditions, ∀ f,
        (wait scene c d now).fault = some f → f.IsUnready) →
      (d.cancel = none ∨ Condition.healthcheck ∉ Condition.leavesAll conditions) →
      Conjunctive scene conditions d now) ∧
    (∀ (settings : Settings) (spec : Spec) (timeout : Option Binary64) (ordinal : Nat) (s t : Stage)
      (p : Container × Deadline),
      spec.execBeforeReady = [] → spec.execAfterStart = [] →
      started settings spec timeout ordinal s = (.ok p, t) →
      let scene : Scene := ⟨p.1, t.box, t.world, settings⟩
      scene.LeavesReadinessToWaits →
      (∀ c ∈ Condition.leavesAll spec.waitFor, ∀ f,
        (wait scene c p.2 t.now).fault = some f → f.IsUnready) →
      (IsReady (run settings spec timeout ordinal s) ↔
        ∀ c ∈ Condition.leavesAll spec.waitFor, (wait scene c p.2 t.now).fault = none)) := by
  refine ⟨fun scene conditions d now hworld hunready hcancel =>
    Readiness.waitAll_conjunctive hworld hunready hcancel, ?_⟩
  intro settings spec timeout ordinal s t p hbefore hafter hstarted scene hworld hunready
  -- The deadline of a lifecycle is its own, and nobody cancels it.
  have hcancel : p.2.cancel = none := by
    rw [started_deadline hstarted]
    rfl
  exact (run_isReady_iff hbefore hafter hstarted).trans
    (Readiness.waitAll_conjunctive hworld hunready (.inl hcancel)).well

/-- A scene in which nothing is scripted leaves the failure to be ready to the waits. -/
theorem leavesReadinessToWaits_of_silent {scene : Scene} (hlogs : scene.box.logsFault = none)
    (hends : scene.box.logEndFault = none) (hhealth : scene.box.health = [])
    (hhttp : scene.world.http = []) : scene.LeavesReadinessToWaits where
  logs f h := by rw [hlogs] at h; cases h
  logEnd f h := by rw [hends] at h; cases h
  health t f h := by
    rw [World.Box.healthAt, hhealth] at h
    cases h
  http url t f h := by
    rw [World.replyAt, hhttp] at h
    cases h
    exact id

/-! ### A container that recovers -/

/-- A container whose healthcheck turns good after 170 ms. It is asked rarely. -/
def recovering : Scene where
  container := ⟨"c1", "localhost", [], none⟩
  box := { World.Box.quiet with
    health := [⟨0, .ok (some "starting")⟩, ⟨170 * Clock.millisecond, .ok (some "healthy")⟩] }
  world := .quiet
  settings := { Settings.usual with healthPollInterval := Settings.secondsOf 5 }

/-- The recovering container fails no question. -/
theorem recovering_leavesReadinessToWaits : recovering.LeavesReadinessToWaits where
  logs := nofun
  logEnd := nofun
  health t f h := by
    unfold World.Box.healthAt at h
    split at h
    · cases h
    · -- Both of its statuses are statuses, and no faults.
      rename_i point hlast
      have hmem := List.mem_of_mem_filter (List.mem_of_getLast? hlast)
      simp only [recovering, List.mem_cons, List.not_mem_nil, or_false] at hmem
      rcases hmem with rfl | rfl <;> cases h
  http url t f h := by
    cases h
    exact id

/-- A deadline of three seconds. -/
def patient : Deadline := .start 0 (Settings.secondsOf 3)

/-- A spec without steps that waits for a while. -/
def brief : Spec := { Spec.ofImage "redis" "7.2" with waitFor := [.delay 50] }

/-- The law at the recovering container, with a group in a group, and at a lifecycle of its own. -/
theorem waits_by_leaves_of_recovering :
    Conjunctive recovering [.healthcheck, .all [.delay 50, .all [.delay 5000]]] patient 0 ∧
      (waitAll recovering [.healthcheck, .all [.delay 50, .all [.delay 5000]]] patient 0).fault
        ≠ none ∧
      IsReady (run .usual brief none 1 (.ready .quiet .quiet 0)) := by
  have hunready : ∀ c ∈ Condition.leavesAll [.healthcheck, .all [.delay 50, .all [.delay 5000]]],
      ∀ f ∈ (wait recovering c patient 0).fault, f.IsUnready := by decide +kernel
  have halone : (wait recovering (.delay 5000) patient 0).fault ≠ none := by decide +kernel
  have h := waits_by_leaves.1 recovering _ patient 0 recovering_leavesReadinessToWaits hunready
    (.inl rfl)
  have hwords : Condition.areDescribable [.delay 50, .all [.delay 5000]] = true ∧
      Condition.areDescribable [.delay 5000] = true := by decide
  refine ⟨h, fun hnone => halone (h.well.mp hnone (.delay 5000)
    (by simp [Condition.leavesAll, Condition.leaves, hwords])), ?_⟩
  -- The lifecycle comes to its wait, in a world in which nothing is scripted.
  have hfacts : (match started .usual brief none 1 (.ready .quiet .quiet 0) with
      | (.ok p, t) => decide (t.box.logsFault = none ∧ t.box.logEndFault = none ∧
          t.box.health.length = 0 ∧ t.world.http.length = 0 ∧
          ∀ c ∈ Condition.leavesAll brief.waitFor,
            (wait ⟨p.1, t.box, t.world, .usual⟩ c p.2 t.now).fault = none)
      | (.error _, _) => false) = true := by decide +kernel
  split at hfacts
  · rename_i p t hstarted
    obtain ⟨hlogs, hends, hhealth, hhttp, hwell⟩ := of_decide_eq_true hfacts
    refine (waits_by_leaves.2 .usual brief none 1 _ t p rfl rfl hstarted
      (leavesReadinessToWaits_of_silent hlogs hends (List.length_eq_zero_iff.mp hhealth)
        (List.length_eq_zero_iff.mp hhttp)) fun c hc f hf => ?_).mpr hwell
    rw [hwell c hc] at hf
    cases hf
  · cases hfacts

/-- Against a deadline that is itself cancelled meanwhile, a healthcheck alone fails at once. In a
group it is cancelled at the next look only, and may have been asked once more until then. -/
theorem not_waits_by_leaves_of_cancelled :
    ¬ ∀ (scene : Scene) (conditions : List Condition) (d : Deadline) (now : Int),
      scene.LeavesReadinessToWaits → d.isExpired now = false →
      0 < Clock.ofSeconds scene.settings.healthPollInterval →
      0 < Clock.ofSeconds scene.settings.httpPollInterval →
      (∀ c ∈ Condition.leavesAll conditions, ∀ f,
        (wait scene c d now).fault = some f → f.IsUnready) →
      ((waitAll scene conditions d now).fault = none ↔
        ∀ c ∈ Condition.leavesAll conditions, (wait scene c d now).fault = none) := by
  intro h
  let d : Deadline := { patient with cancel := some (150 * Clock.millisecond) }
  have hunready : ∀ c ∈ Condition.leavesAll [.healthcheck, .delay 50],
      ∀ f ∈ (wait recovering c d 0).fault, f.IsUnready := by decide +kernel
  have hchild : ∀ c ∈ [Condition.healthcheck, .delay 50],
      (wait recovering c (d.child 0) 0).fault = none := by decide +kernel
  -- In the group the member has a child of the deadline, which is not cancelled.
  have hgroup : (waitAll recovering [.healthcheck, .delay 50] d 0).fault = none := by
    refine Readiness.Group.wait_fault_eq_none fun m hm => ?_
    change m ∈ Readiness.waits recovering [.healthcheck, .delay 50] at hm
    rw [Readiness.waits_eq_map] at hm
    obtain ⟨c, hc, rfl⟩ := List.mem_map.mp hm
    exact hchild c hc
  have halone : (wait recovering .healthcheck d 0).fault ≠ none := by decide +kernel
  exact halone ((h recovering [.healthcheck, .delay 50] d 0 recovering_leavesReadinessToWaits
    (by decide +kernel) (by decide +kernel) (by decide +kernel) hunready).mp hgroup .healthcheck
    (by simp [Condition.leavesAll, Condition.leaves]))

end Slipway.Lifecycle
