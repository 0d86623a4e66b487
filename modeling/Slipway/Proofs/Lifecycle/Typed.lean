import Slipway.Proofs.Lifecycle.Cleanup
import Slipway.Proofs.Lifecycle.Punctual
import Slipway.Proofs.Readiness.Precedence

/-!
# `Slipway.Proofs.Lifecycle.Typed`: a lifecycle ends with an outcome

A spec is plain if it has no factories, and no conditions of a kind that nothing here can evaluate.
If the engine raises only failures and the URLs only faults of requests, a lifecycle of a plain spec
ends with an outcome: ready with a container, or failed with a failure (`run_typed`).

There are three exceptions. Milliseconds that are too many to be a number of seconds are a defect,
which no lifecycle turns into a failure, although a delay that is merely too long for the deadline
is one (`Spec.HasOverlongDelay`). So is a condition with a number that is too long to be written,
since the wait for it begins with its words (`Spec.HasIndescribable`). And where an interval is not
positive, a wait may poll without end.

The first two are no matter of luck: a lifecycle that comes to wait for such a condition raises one
of the two defects, whatever is waited for beside it. A defect comes before all failures in every
group. -/

set_option autoImplicit false

namespace Slipway

open Slipway.World (Act Stage)

/-- Whether a fault is a failure. -/
def Fault.IsFailure : Fault → Prop
  | .failure _ => True
  | _ => False

/-- Whether a delay is too long to be a number of seconds. -/
def Readiness.Delay.IsOverlong (millis : Nat) : Prop :=
  lengthOf millis = .error (.defect .quotientTooLarge)

/-- Whether a leaf is a defect whenever it is waited for, since a number in it is too large. -/
def Condition.IsOutOfRange (l : Condition) : Prop :=
  l.isDescribable = false ∨ ∃ millis, l = .delay millis ∧ Readiness.Delay.IsOverlong millis

/-! ### Specs and worlds -/

/-- Whether a command is one that a lifecycle may run. -/
def Spec.Runs (spec : Spec) (command : Command) : Prop :=
  .step (.command command) ∈ spec.execBeforeReady ++ spec.execAfterStart

/-- A spec that is data: its steps are given, and its conditions are of known kinds. -/
structure Spec.IsPlain (spec : Spec) : Prop where
  steps : ∀ source ∈ spec.execBeforeReady ++ spec.execAfterStart, ∃ step, source = .step step
  conditions : ∀ c, spec.WaitsFor c → ∀ label, .foreign label ∉ c.leaves

/-- Whether a spec names a delay that is too long to be a number of seconds, as a condition that can
be put in words or after a command. -/
def Spec.HasOverlongDelay (spec : Spec) : Prop :=
  ∃ millis, Readiness.Delay.IsOverlong millis ∧
    ((∃ c, spec.WaitsFor c ∧ .delay millis ∈ c.leaves ∧
        (Condition.delay millis).isDescribable = true) ∨
      ∃ command, spec.Runs command ∧ command.completion = some (.sleep millis))

/-- Whether a spec names a condition that cannot be put in words. -/
def Spec.HasIndescribable (spec : Spec) : Prop :=
  ∃ c, spec.WaitsFor c ∧ ∃ l ∈ c.leaves, l.isDescribable = false

/-- The ways in which a lifecycle of a plain spec may come to grief: a failure is its outcome, and
the others are raised. -/
def Spec.Admits (settings : Settings) (spec : Spec) (f : Fault) : Prop :=
  f.IsFailure ∨ (f = .defect .quotientTooLarge ∧ spec.HasOverlongDelay) ∨
    (f = .defect .integerTooLong ∧ spec.HasIndescribable) ∨
    (f = .defect .stalled ∧ ¬ spec.HasPositiveIntervals settings)

section
variable {settings : Settings} {spec : Spec} {f : Fault}

/-- Failures are always admitted. -/
theorem Spec.Admits.failure (g : Failure) : spec.Admits settings (.failure g) := .inl trivial

/-- No interrupt is admitted. -/
theorem Spec.Admits.isInterrupt_eq (h : spec.Admits settings f) : f.isInterrupt = false := by
  rcases h with hfailure | ⟨rfl, -⟩ | ⟨rfl, -⟩ | ⟨rfl, -⟩
  · cases f <;> first | rfl | exact hfailure.elim
  · rfl
  · rfl
  · rfl

/-- That milliseconds are too many is all that can be wrong with the length of a delay. -/
theorem Readiness.Delay.eq_quotientTooLarge {millis : Nat} (h : lengthOf millis = .error f) :
    f = .defect .quotientTooLarge := by
  unfold lengthOf at h
  split at h <;> cases h
  rfl

/-- What bars a leaf that can be put in words is admitted. -/
theorem Spec.IsPlain.admits_of_bars (h : spec.IsPlain) {c l : Condition} (hc : spec.WaitsFor c)
    (hl : l ∈ c.leaves) (hwords : l.isDescribable = true) {scene : Readiness.Scene}
    (hbars : scene.Bars l f) :
    spec.Admits scene.settings f := by
  cases l with
  | log m => exact hbars.elim
  | http p =>
    rcases hbars with hport | ⟨rfl, hinterval⟩
    · -- A port that is not published is a failure.
      unfold Container.endpoint Container.resolve at hport
      split at hport <;> cases hport
      exact .failure _
    · exact .inr (.inr (.inr ⟨rfl, fun hpos => hinterval (hpos c hc _ hl)⟩))
  | delay millis =>
    have hlength : Readiness.Delay.lengthOf millis = .error f := hbars
    obtain rfl := Readiness.Delay.eq_quotientTooLarge hlength
    exact .inr (.inl ⟨rfl, millis, hlength, .inl ⟨c, hc, hl, hwords⟩⟩)
  | healthcheck =>
    obtain ⟨rfl, hinterval⟩ := hbars
    exact .inr (.inr (.inr ⟨rfl, fun hpos => hinterval (hpos c hc _ hl)⟩))
  | all members => exact hbars.elim
  | foreign label => exact absurd hl (h.conditions c hc label)

/-- What a leaf refuses with is admitted. -/
theorem Spec.IsPlain.raisesOnly_of_waitsFor (h : spec.IsPlain) {c : Condition}
    (hc : spec.WaitsFor c) :
    c.RaisesOnly (spec.Admits settings) settings := by
  rintro l hl scene rfl f hrefuses
  unfold Readiness.Scene.Refuses at hrefuses
  split at hrefuses
  · rename_i hwords
    exact h.admits_of_bars hc hl hwords hrefuses
  · rename_i hwords
    exact .inr (.inr (.inl ⟨hrefuses, c, hc, l, hl, by simpa using hwords⟩))

/-- A plain spec raises by itself only what is admitted. -/
theorem Spec.IsPlain.raisesOnly (h : spec.IsPlain) :
    spec.RaisesOnly (spec.Admits settings) settings := by
  have hsource : ∀ source ∈ spec.execBeforeReady ++ spec.execAfterStart,
      source.RaisesOnly (spec.Admits settings) settings := by
    intro source hmem
    -- There are no factories, so a source is a step, and it expands to itself.
    obtain ⟨step, rfl⟩ := h.steps source hmem
    refine ⟨fun container f hf => (nomatch hf), ?_⟩
    intro container steps hsteps c hc
    have hexpand : Source.expand container (.step step) = .ok [step] := rfl
    rw [hexpand] at hsteps
    cases hsteps
    obtain rfl := List.mem_singleton.mp hc
    refine ⟨fun millis hsleep f hf => ?_, fun r hr => h.raisesOnly_of_waitsFor ?_⟩
    · obtain rfl := Readiness.Delay.eq_quotientTooLarge hf
      exact .inr (.inl ⟨rfl, millis, hf, .inr ⟨c, hmem, hsleep⟩⟩)
    · exact .inr ⟨_, hmem, container, _, c, hexpand, List.mem_singleton_self _, hr⟩
  exact {
    waitFor := fun c hc => h.raisesOnly_of_waitsFor (.inl hc)
    execBeforeReady := fun source hs => hsource source (List.mem_append_left _ hs)
    execAfterStart := fun source hs => hsource source (List.mem_append_right _ hs) }

end

/-- A box that raises only faults of one kind raises only faults of any larger kind. -/
theorem World.Box.RaisesOnly.mono {P Q : Fault → Prop} {b : World.Box} (h : b.RaisesOnly P)
    (hPQ : ∀ f, P f → Q f) : b.RaisesOnly Q where
  create f hf := hPQ f (h.create f hf)
  start f hf := hPQ f (h.start f hf)
  status f hf := hPQ f (h.status f hf)
  inspect f hf := hPQ f (h.inspect f hf)
  copy f hf := hPQ f (h.copy f hf)
  remove f hf := hPQ f (h.remove f hf)
  logs f hf := hPQ f (h.logs f hf)
  logEnd f hf := hPQ f (h.logEnd f hf)
  health p hp f hf := hPQ f (h.health p hp f hf)
  execs e he f hf := hPQ f (h.execs e he f hf)

/-- So does a world. -/
theorem World.RaisesOnly.mono {P Q : Fault → Prop} {w : World} (h : w.RaisesOnly P)
    (hPQ : ∀ f, P f → Q f) : w.RaisesOnly Q :=
  fun url now f hreply hother => hPQ f (h url now f hreply hother)

/-! ### Numbers that are too large -/

namespace Readiness

/-- A leaf with a number that is too large is a defect, against any deadline. -/
theorem wait_of_isOutOfRange (scene : Scene) {l : Condition} (h : l.IsOutOfRange) (d : Deadline)
    (now : Int) : (wait scene l d now).fault = some (.defect .integerTooLong) ∨
      (wait scene l d now).fault = some (.defect .quotientTooLarge) := by
  -- A leaf is described before it is waited for, so that fault comes first.
  cases hwords : l.isDescribable with
  | false =>
    rw [wait_of_not_isDescribable hwords]
    exact .inl rfl
  | true =>
    obtain ⟨millis, rfl, hlong⟩ := h.resolve_left (by simp [hwords])
    right
    rw [wait, described_of_isDescribable hwords, Delay.wait]
    rw [show Delay.lengthOf millis = _ from hlong]
    rfl

/-- However deep in a tree such a leaf is, the wait ends with a fault that is no failure. -/
theorem waitAll_of_isOutOfRange (scene : Scene) {cs : List Condition} {l : Condition}
    (hmem : l ∈ Condition.leavesAll cs) (h : l.IsOutOfRange) (d : Deadline) (now : Int) :
    ∃ f, (waitAll scene cs d now).fault = some f ∧ ∀ g, f ≠ .failure g := by
  have hforeign : ∀ d', Group.isForeign (wait scene l d' now) = true := by
    intro d'
    refine Group.isForeign_iff.mpr ?_
    rcases wait_of_isOutOfRange scene h d' now with hf | hf
    · exact ⟨_, hf, nofun⟩
    · exact ⟨_, hf, nofun⟩
  -- The leaf ends so in its group, whatever deadline that has.
  obtain ⟨d', he⟩ : ∃ d', wait scene l d' now ∈ allEnds scene cs d now :=
    exists_leafEnd_of_mem hmem d
  refine Group.isForeign_iff.mp ?_
  rw [waitAll_any (fun _ => rfl) Group.isForeign_join]
  exact List.any_eq_true.mpr ⟨_, he, hforeign d'⟩

end Readiness

/-! ### Lifecycles -/

/-- An outcome that is ready with a container, or failed with a failure. -/
def Outcome.IsTyped (o : Outcome) : Prop :=
  (o.phase = .ready ∧ o.container.isSome ∧ o.failure = none) ∨
    (o.phase = .failed ∧ o.container = none ∧ o.failure.isSome)

namespace Lifecycle

section
variable {settings : Settings} {spec : Spec}

/-- What a lifecycle comes to is an outcome, or the fault with which bringing up ended. -/
theorem resultOf_typed (u : Stage) (r : Except Fault Container) :
    (∃ o, resultOf u r = .ok o ∧ o.IsTyped) ∨
      ∃ e, r = .error e ∧ resultOf u r = .error e ∧ ¬ e.IsFailure := by
  cases r with
  | ok c => exact .inl ⟨_, rfl, .inl ⟨rfl, rfl, rfl⟩⟩
  | error e =>
    cases e with
    | failure f => exact .inl ⟨_, rfl, .inr ⟨rfl, rfl, rfl⟩⟩
    | _ => exact .inr ⟨_, rfl, rfl, id⟩

/-- A lifecycle of a plain spec comes to what bringing up its container came to, and that ends with
nothing but what the spec admits. -/
theorem run_eq_resultOf_of_isPlain {world : World} {box : World.Box} (hplain : spec.IsPlain)
    (hbox : box.RaisesOnly Fault.IsFailure) (hworld : world.RaisesOnly fun _ => False)
    (timeout : Option Binary64) (ordinal : Nat) (now : Int) :
    ∃ result u, bringUp settings spec timeout ordinal (.ready world box now) = (result, u) ∧
      (run settings spec timeout ordinal (.ready world box now)).1 = resultOf u result ∧
      ∀ e, result = .error e → spec.Admits settings e := by
  have hstage : (Stage.ready world box now).RaisesOnly (spec.Admits settings) :=
    ⟨hbox.mono fun _ => .inl, hworld.mono fun _ h => h.elim⟩
  obtain ⟨herror, hends⟩ := bringUp_raises Spec.Admits.failure hplain.raisesOnly timeout ordinal
    (.ready world box now) hstage
  cases hup : bringUp settings spec timeout ordinal (.ready world box now) with
  | mk result u =>
    rw [hup] at herror hends
    -- No removal is interrupted.
    have hcalm : ∀ e, ¬ u.box.Interrupts e := by
      rintro e ⟨hfault, hinterrupt⟩
      rw [(hends.box.remove e hfault).isInterrupt_eq] at hinterrupt
      cases hinterrupt
    exact ⟨result, u, rfl, run_eq_resultOf hcalm hup, herror⟩

/-- A container for which a condition with a number that is too large is waited is not brought up.
-/
theorem bringUp_of_isOutOfRange {timeout : Option Binary64} {ordinal : Nat} {s t : Stage}
    {p : Container × Deadline} {l : Condition} (hmem : l ∈ Condition.leavesAll spec.waitFor)
    (hl : l.IsOutOfRange) (h : prepared settings spec timeout ordinal s = (.ok p, t)) :
    ∃ f u, bringUp settings spec timeout ordinal s = (.error f, u) ∧ ∀ g, f ≠ .failure g := by
  obtain ⟨f, hfault, hother⟩ :=
    Readiness.waitAll_of_isOutOfRange ⟨p.1, t.box, t.world, settings⟩ hmem hl p.2 t.now
  exact ⟨f, _, bringUp_of_wait h hfault, hother⟩

/-- A lifecycle of a plain spec ends with an outcome, unless a delay is too long to be a number of
seconds, a condition names a number that is too long to be written, or a wait polls without end
since its interval is not positive. The number has to be reached: if the wait of the lifecycle is,
it raises one of the two defects. -/
theorem run_typed {world : World} {box : World.Box} (hplain : spec.IsPlain)
    (hbox : box.RaisesOnly Fault.IsFailure) (hworld : world.RaisesOnly fun _ => False)
    (timeout : Option Binary64) (ordinal : Nat) (now : Int) :
    let r := (run settings spec timeout ordinal (.ready world box now)).1
    ((∃ o, r = .ok o ∧ o.IsTyped) ∨
      (r = .error (.defect .quotientTooLarge) ∧ spec.HasOverlongDelay) ∨
      (r = .error (.defect .integerTooLong) ∧ spec.HasIndescribable) ∨
      (r = .error (.defect .stalled) ∧ ¬ spec.HasPositiveIntervals settings)) ∧
    (spec.HasPositiveIntervals settings →
      (∃ l ∈ Condition.leavesAll spec.waitFor, l.IsOutOfRange) →
      ∀ p u, prepared settings spec timeout ordinal (.ready world box now) = (.ok p, u) →
        r = .error (.defect .quotientTooLarge) ∨ r = .error (.defect .integerTooLong)) := by
  intro r
  obtain ⟨result, u, hup, hr, hadmits⟩ :=
    @run_eq_resultOf_of_isPlain settings _ _ _ hplain hbox hworld
    timeout ordinal now
  have hresult : r = resultOf u result := hr
  have htyped : (∃ o, r = .ok o ∧ o.IsTyped) ∨
      (r = .error (.defect .quotientTooLarge) ∧ spec.HasOverlongDelay) ∨
      (r = .error (.defect .integerTooLong) ∧ spec.HasIndescribable) ∨
      (r = .error (.defect .stalled) ∧ ¬ spec.HasPositiveIntervals settings) := by
    rw [hresult]
    rcases resultOf_typed u result with hok | ⟨e, rfl, he, hnot⟩
    · exact .inl hok
    · rw [he]
      -- A plain spec admits failures and three defects, each with a reason of its own.
      rcases hadmits e rfl with hfailure | ⟨rfl, hlong⟩ | ⟨rfl, hwords⟩ | ⟨rfl, hintervals⟩
      · exact absurd hfailure hnot
      · exact .inr (.inl ⟨rfl, hlong⟩)
      · exact .inr (.inr (.inl ⟨rfl, hwords⟩))
      · exact .inr (.inr (.inr ⟨rfl, hintervals⟩))
  refine ⟨htyped, ?_⟩
  -- A wait that comes to a leaf out of range cannot end well, and no failure is what it ends with.
  rintro hpositive ⟨l, hmem, hl⟩ p v hprepared
  obtain ⟨f, w, hraised, hother⟩ := bringUp_of_isOutOfRange hmem hl hprepared
  rw [hup] at hraised
  cases hraised
  rcases htyped with ⟨o, ho, -⟩ | ⟨hdefect, -⟩ | ⟨hdefect, -⟩ | ⟨-, hintervals⟩
  · rw [hresult] at ho
    cases f with
    | failure g => exact absurd rfl (hother g)
    | _ => cases ho
  · exact .inl hdefect
  · exact .inr hdefect
  · exact absurd hpositive hintervals

end

/-- A spec that waits for some milliseconds. -/
def delaying (millis : Nat) : Spec := { Spec.ofImage "a" "latest" with waitFor := [.delay millis] }

/-- A spec with a delay is plain. -/
theorem delaying_isPlain (millis : Nat) : (delaying millis).IsPlain where
  steps source hs := nomatch hs
  conditions c hc label hl := by
    rcases hc with hc | ⟨source, hs, -⟩
    · obtain rfl := List.mem_singleton.mp hc
      exact nomatch List.mem_singleton.mp hl
    · exact nomatch hs

/-- Such a spec waits for that delay and for nothing else. -/
theorem eq_delay_of_waitsFor {millis : Nat} {c l : Condition} (hc : (delaying millis).WaitsFor c)
    (hl : l ∈ c.leaves) : l = .delay millis := by
  rcases hc with hc | ⟨source, hs, -⟩
  · obtain rfl := List.mem_singleton.mp hc
    exact List.mem_singleton.mp hl
  · exact nomatch hs

/-- It asks nobody, so there is no interval. -/
theorem delaying_hasPositiveIntervals (millis : Nat) :
    (delaying millis).HasPositiveIntervals .usual := by
  intro c hc l hl
  rw [eq_delay_of_waitsFor hc hl]
  trivial

/-- Its delay can be overlong only if it can be written down. -/
theorem isDescribable_of_hasOverlongDelay {millis : Nat} (h : (delaying millis).HasOverlongDelay) :
    (Condition.delay millis).isDescribable = true := by
  obtain ⟨_, -, ⟨c, hc, hl, hwords⟩ | ⟨command, hruns, -⟩⟩ := h
  · exact eq_delay_of_waitsFor hc hl ▸ hwords
  · exact nomatch hruns

/-- It is the only leaf, so it is the one that cannot be written down. -/
theorem not_isDescribable_of_hasIndescribable {millis : Nat}
    (h : (delaying millis).HasIndescribable) : (Condition.delay millis).isDescribable = false := by
  obtain ⟨c, hc, l, hl, hwords⟩ := h
  exact eq_delay_of_waitsFor hc hl ▸ hwords

/-- Of three delays beyond the deadline the shortest fails, and the others raise a defect each. -/
theorem run_typed_of_delaying :
    (∀ millis, (delaying millis).IsPlain) ∧ World.Box.quiet.RaisesOnly Fault.IsFailure ∧
      World.quiet.RaisesOnly (fun _ => False) ∧
      (∃ o,
        (run .usual (delaying (Nat.pow 10 300)) oneSecond 1 (.ready .quiet .quiet 0)).1 = .ok o ∧
        o.IsTyped ∧ o.phase = .failed) ∧
      (run .usual (delaying (Nat.pow 10 400)) oneSecond 1 (.ready .quiet .quiet 0)).1 =
        .error (.defect .quotientTooLarge) ∧
      (run .usual (delaying (Nat.pow 10 4300)) oneSecond 1 (.ready .quiet .quiet 0)).1 =
        .error (.defect .integerTooLong) := by
  have hbox : World.Box.quiet.RaisesOnly Fault.IsFailure := World.Box.quiet_raisesOnly
  have hworld : World.quiet.RaisesOnly fun _ => False := World.quiet_raisesOnly
  have hends := fun millis => @run_typed .usual _ _ _ (delaying_isPlain millis) hbox hworld
    oneSecond 1 0
  -- Nothing goes wrong until the delay is waited for.
  have hprepared : ∀ millis, (prepared .usual (delaying millis) oneSecond 1
      (.ready .quiet .quiet 0)).1.toOption.isSome = true := fun _ => by rfl
  have hraises : ∀ millis, (Condition.delay millis).IsOutOfRange →
      (run .usual (delaying millis) oneSecond 1 (.ready .quiet .quiet 0)).1 =
        .error (.defect .quotientTooLarge) ∨
      (run .usual (delaying millis) oneSecond 1 (.ready .quiet .quiet 0)).1 =
        .error (.defect .integerTooLong) := by
    intro millis hrange
    have hprepared := hprepared millis
    cases h : prepared .usual (delaying millis) oneSecond 1 (.ready .quiet .quiet 0) with
    | mk r u =>
      rw [h] at hprepared
      cases r with
      | error e => cases hprepared
      | ok p =>
        exact (hends millis).2 (delaying_hasPositiveIntervals millis)
          ⟨_, List.mem_singleton_self _, hrange⟩ p u h
  refine ⟨delaying_isPlain, hbox, hworld, ?_, ?_, ?_⟩
  · have hfailed : (run .usual (delaying (Nat.pow 10 300)) oneSecond 1
        (.ready .quiet .quiet 0)).1.toOption.map Outcome.phase = some .failed := by decide +kernel
    rcases (hends (Nat.pow 10 300)).1 with ⟨o, ho, htyped⟩ | ⟨he, -⟩ | ⟨he, -⟩ | ⟨he, -⟩
    · rw [ho] at hfailed
      exact ⟨o, ho, htyped, Option.some.inj hfailed⟩
    all_goals
      rw [he] at hfailed
      cases hfailed
  · have hwords : (Condition.delay (Nat.pow 10 400)).isDescribable = true := by decide +kernel
    have hlong : Readiness.Delay.IsOverlong (Nat.pow 10 400) := by
      show Readiness.Delay.lengthOf (Nat.pow 10 400) = _
      decide +kernel
    rcases hraises _ (.inr ⟨_, rfl, hlong⟩) with hr | hr
    · exact hr
    · rcases (hends _).1 with ⟨o, ho, -⟩ | ⟨he, -⟩ | ⟨-, hindescribable⟩ | ⟨he, -⟩
      · exact nomatch hr.symm.trans ho
      · exact nomatch hr.symm.trans he
      · rw [not_isDescribable_of_hasIndescribable hindescribable] at hwords
        cases hwords
      · exact nomatch hr.symm.trans he
  · have hwords : (Condition.delay (Nat.pow 10 4300)).isDescribable = false := by decide +kernel
    rcases hraises _ (.inl hwords) with hr | hr
    · rcases (hends _).1 with ⟨o, ho, -⟩ | ⟨-, hoverlong⟩ | ⟨he, -⟩ | ⟨he, -⟩
      · exact nomatch hr.symm.trans ho
      · rw [isDescribable_of_hasOverlongDelay hoverlong] at hwords
        cases hwords
      · exact nomatch hr.symm.trans he
      · exact nomatch hr.symm.trans he
    · exact hr

end Lifecycle
end Slipway
