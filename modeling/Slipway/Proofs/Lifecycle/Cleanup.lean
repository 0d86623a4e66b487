import Slipway.Proofs.Lifecycle.Chronicle
import Slipway.Proofs.Lifecycle.Heedless
import Slipway.Proofs.Lifecycle.Removal

/-!
# `Slipway.Proofs.Lifecycle.Cleanup`: how one lifecycle cleans up

Bringing a container up never removes it, so all removals of a lifecycle are those of its closing
(`Stage.Closes`), and of these there is at most one. `CleansUp` states when there is: none if the
container is ready, one if the lifecycle failed and the settings do not keep what failed, and one in
any case if anything else stopped it.

What comes of the removal does not matter. A lifecycle comes to what bringing up came to
(`resultOf`), unless its removal is interrupted, and bringing up is heedless of removals. So the
result is the same whether a removal goes well or not: the failure is never masked. `run_cleans_up`
puts the two together. -/

set_option autoImplicit false

namespace Slipway

open Slipway.World (Act Note Stage Trace)

/-! ### Removals -/

/-- Whether a container was removed once, and nothing happened to it after that. -/
def World.Trace.EndsRemoved (id : String) (t : Trace) : Prop :=
  ∃ earlier time, t.events id = earlier ++ [(time, .remove)] ∧ ∀ x ∈ earlier, x.2 ≠ .remove

namespace World.Stage.Closes

variable {phases : List Phase} {id : String} {s t : Stage}

/-- A closing that ends a container ends with its removal, the only one if there was none before. -/
theorem endsRemoved (h : s.Closes (some id) phases t) (hne : id ≠ "") (hs : ¬ s.trace.Removes id) :
    t.trace.EndsRemoved id := by
  refine ⟨s.trace.events id, s.now, h.events_ended hne, fun x hx hremove => hs ?_⟩
  obtain ⟨time, event⟩ := x
  cases hremove
  exact World.Trace.removes_of_mem_events hx

/-- A closing that ends no container removes none. -/
theorem not_removes (h : s.Closes none phases t) (hs : ∀ i, ¬ s.trace.Removes i) (i : String) :
    ¬ t.trace.Removes i :=
  h.onward.not_removes (fun _ hclosing => nomatch hclosing.1) hs i

end World.Stage.Closes

/-- A container without a name of its own has an id that is not empty. -/
theorem World.Act.idOf_ne_empty {box : World.Box} (h : box.id ≠ some "") (spec : Spec)
    (ordinal : Nat) : Act.idOf box spec ordinal ≠ "" := by
  unfold idOf
  cases hid : box.id with
  | some id => exact fun he => h (hid.trans (congrArg some he))
  | none =>
    intro he
    have hsharp := (String.append_eq_empty_iff.mp (String.append_eq_empty_iff.mp he).1).2
    exact absurd hsharp (by decide)

namespace Lifecycle

section
variable {settings : Settings} {spec : Spec} {timeout : Option Binary64} {ordinal : Nat}
variable {s t u : Stage} {id : String}

/-- An empty trace removes nothing. -/
theorem not_removes_of_trace_nil (hs : s.trace = []) (i : String) : ¬ s.trace.Removes i := by
  rw [hs]
  rintro ⟨x, hx, -⟩
  cases hx

/-- Nothing is removed while a container is brought up. -/
theorem Rise.not_removes {phases : List Phase} (h : Rise id phases s u) (hs : s.trace = [])
    (i : String) : ¬ u.trace.Removes i :=
  h.onward.not_removes (fun _ => not_isRise_remove) (fun _ => not_removes_of_trace_nil hs _) i

/-! ### The result -/

/-- What a lifecycle comes to whose bringing up ended on a stage, if no interrupt comes after that.
-/
def resultOf (u : Stage) : Except Fault Container → Except Fault Outcome
  | .ok c => .ok ⟨true, u.id, some c, none, u.history ++ [.ready]⟩
  | .error (.failure f) => .ok ⟨false, u.id, none, some f, u.history ++ [.failed]⟩
  | .error e => .error e

/-- When no removal interrupts, the result is that of bringing the container up. -/
theorem run_eq_resultOf {r : Except Fault Container} (hcalm : ∀ e, ¬ u.box.Interrupts e)
    (h : bringUp settings spec timeout ordinal s = (r, u)) :
    (run settings spec timeout ordinal s).1 = resultOf u r := by
  -- A ready container, a failure, or a fault of another kind.
  cases r with
  | ok c =>
    obtain ⟨t, hrun, -⟩ := run_of_ok h
    rw [hrun]
    rfl
  | error e =>
    -- Only failures become outcomes; any other fault is raised again after the removal.
    by_cases he : ∃ f, e = .failure f
    · obtain ⟨f, rfl⟩ := he
      obtain ⟨r, t, hrun, -, hok, herror⟩ := run_of_failure h
      rw [hrun]
      cases r with
      | ok o =>
        rw [hok o rfl]
        rfl
      | error e => exact absurd (herror e rfl).2 (hcalm e)
    · have hother : ∀ f, e ≠ .failure f := fun f hf => he ⟨f, hf⟩
      obtain ⟨e', t, hrun, -, rfl | hinterrupt⟩ := run_of_other hother h
      · rw [hrun]
        cases e' with
        | failure f => exact absurd rfl (hother f)
        | _ => rfl
      · exact absurd hinterrupt (hcalm e')

/-- A removal that goes wrong without an interrupt leaves the result as it is. -/
theorem run_withRemoval {q : Option Fault} (hq : ∀ e, q = some e → e.isInterrupt = false)
    (s : Stage) :
    (run settings spec timeout ordinal (s.withRemoval q)).1 =
      (run settings spec timeout ordinal (s.withRemoval none)).1 := by
  -- Both come to what bringing up comes to on one stage, with one removal or the other.
  have hresult : ∀ q : Option Fault, (∀ e, q = some e → e.isInterrupt = false) →
      (run settings spec timeout ordinal (s.withRemoval q)).1 =
        resultOf (bringUp settings spec timeout ordinal s).2
          (bringUp settings spec timeout ordinal s).1 := by
    intro q hq
    have hup : bringUp settings spec timeout ordinal (s.withRemoval q) =
        ((bringUp settings spec timeout ordinal s).1,
          (bringUp settings spec timeout ordinal s).2.withRemoval q) :=
      @bringUp_heedless (.removing q) settings spec timeout ordinal s
    have hcalm : ∀ e,
        ¬ ((bringUp settings spec timeout ordinal s).2.withRemoval q).box.Interrupts e := by
      rintro e ⟨hfault, hinterrupt⟩
      rw [hq e hfault] at hinterrupt
      cases hinterrupt
    -- The outcome takes nothing from the box.
    exact (run_eq_resultOf hcalm hup).trans rfl
  rw [hresult q hq, hresult none nofun]

/-! ### The container -/

/-- How a start that is over has cleaned up after a container, if one was created. -/
structure CleansUp (settings : Settings) (box : World.Box) (id : String) (r : Finished) : Prop where
  creates : box.createFault = none → r.2.trace.Creates id
  /-- A container that is ready is not removed. -/
  ready : ∀ o, r.1 = .ok o → o.phase = .ready → ∀ i, ¬ r.2.trace.Removes i
  /-- One that failed is removed, unless the settings keep it. -/
  failed : ∀ o, r.1 = .ok o → o.phase = .failed → box.createFault = none →
    if settings.removeOnFailure then r.2.trace.EndsRemoved id else ∀ i, ¬ r.2.trace.Removes i
  /-- If the start ended otherwise, it is removed whatever the settings say. -/
  raised : ∀ e, r.1 = .error e → box.createFault = none → r.2.trace.EndsRemoved id
  /-- Without a container nothing is removed. -/
  uncreated : box.createFault.isSome → ∀ i, ¬ r.2.trace.Removes i

/-- A start that could not create its container has nothing to clean up. -/
theorem cleansUp_of_createFault {e : Fault} (hs : s.trace = []) (hid : s.id = none)
    (hfault : s.box.createFault = some e)
    (hup : bringUp settings spec timeout ordinal s = (.error e, s)) :
    CleansUp settings s.box id (run settings spec timeout ordinal s) := by
  obtain ⟨r, t, phases, hrun, honward, ho, -⟩ := run_of_error hup
  have hkept : ∀ i, ¬ t.trace.Removes i := by
    rw [hid] at honward
    exact honward.not_removes (fun _ hclosing => nomatch hclosing.1) (not_removes_of_trace_nil hs)
  have hnone : s.box.createFault ≠ none := by simp [hfault]
  rw [hrun]
  exact ⟨fun h => absurd h hnone, fun _ _ _ => hkept, fun _ _ _ h => absurd h hnone,
    fun _ _ h => absurd h hnone, fun _ => hkept⟩

/-- A start that created its container cleans it up as bringing up ended: there are three ways. -/
theorem cleansUp_of_rise {phases : List Phase} {r : Except Fault Container} (hs : s.trace = [])
    (hfault : s.box.createFault = none) (hne : id ≠ "") (hrise : Rise id phases s u)
    (hup : bringUp settings spec timeout ordinal s = (r, u)) :
    CleansUp settings s.box id (run settings spec timeout ordinal s) := by
  have hid : u.id = some id := hrise.onward.id
  have hkept : ∀ i, ¬ u.trace.Removes i := hrise.not_removes hs
  have hcreated : ¬ s.box.createFault.isSome := by simp [hfault]
  cases r with
  | ok c =>
    obtain ⟨t, hrun, hcloses⟩ := run_of_ok hup
    rw [hrun]
    refine ⟨fun _ => (creates_iff_of_closes hs hrise hcloses.onward id).mpr ?_,
      fun _ _ _ => hcloses.not_removes hkept, fun o ho hphase => ?_, fun _ he => (nomatch he),
      fun h => absurd h hcreated⟩
    · rw [hcloses.onward.id, hid]
    · cases ho
      cases hphase
  | error e =>
    by_cases he : ∃ f, e = .failure f
    · obtain ⟨f, rfl⟩ := he
      obtain ⟨r, t, hrun, hcloses, hok, herror⟩ := run_of_failure hup
      rw [hid] at hcloses
      rw [hrun]
      refine ⟨fun _ => (creates_iff_of_closes hs hrise hcloses.onward id).mpr ?_,
        fun o ho hphase => ?_, fun _ _ _ _ => ?_, fun e he _ => ?_, fun h => absurd h hcreated⟩
      · rw [hcloses.onward.id, hid]
      · cases ho
        rw [hok o rfl] at hphase
        cases hphase
      · cases hset : settings.removeOnFailure with
        | true =>
          simp only [hset, if_true] at hcloses ⊢
          exact hcloses.endsRemoved hne (hkept id)
        | false =>
          simp only [hset, Bool.false_eq_true, if_false] at hcloses ⊢
          exact hcloses.not_removes hkept
      · -- Only an interrupted removal makes a failure raise, so there was one.
        rw [if_pos (herror e he).1] at hcloses
        exact hcloses.endsRemoved hne (hkept id)
    · obtain ⟨e', t, hrun, hcloses, -⟩ := run_of_other (fun f hf => he ⟨f, hf⟩) hup
      rw [hid] at hcloses
      rw [hrun]
      refine ⟨fun _ => (creates_iff_of_closes hs hrise hcloses.onward id).mpr ?_,
        fun _ ho => (nomatch ho), fun _ ho => (nomatch ho),
        fun _ _ _ => hcloses.endsRemoved hne (hkept id), fun h => absurd h hcreated⟩
      rw [hcloses.onward.id, hid]

/-- Every lifecycle that starts afresh cleans up after its container, and what it comes to is the
same whether the removal goes wrong or not. -/
theorem run_cleans_up (settings : Settings) (spec : Spec) (timeout : Option Binary64)
    (ordinal : Nat)
    (world : World) (box : World.Box) (now : Int) (hid : box.id ≠ some "") :
    CleansUp settings box (Act.idOf box spec ordinal)
        (run settings spec timeout ordinal (.ready world box now)) ∧
      ∀ e : Fault, e.isInterrupt = false →
        (run settings spec timeout ordinal (.ready world (box.withRemoval (some e)) now)).1 =
          (run settings spec timeout ordinal (.ready world (box.withRemoval none) now)).1 := by
  constructor
  · have hrise := @bringUp_rise settings spec timeout ordinal (.ready world box now) rfl
    -- Without a container there is nothing to remove.
    rcases hrise with ⟨e, hfault, hup⟩ | ⟨hfault, phases, hrise⟩
    · exact cleansUp_of_createFault rfl rfl hfault hup
    · exact cleansUp_of_rise rfl hfault (Act.idOf_ne_empty hid spec ordinal) hrise rfl
  · -- The removal comes last, so what it fails with changes nothing before it.
    intro e he
    have hcalm : ∀ e', some e = some e' → e'.isInterrupt = false := by
      rintro e' ⟨⟩
      exact he
    exact run_withRemoval hcalm (.ready world box now)

/-- Settings that keep the container of a failed lifecycle. -/
def keeping : Settings := { Settings.usual with removeOnFailure := false }

/-- A box in which a command is interrupted, and then the container cannot be removed. -/
def interrupting : World.Box :=
  { World.Box.quiet with
    execs := [.exiting ["migrate"] 0 0 (some (.interrupt "KeyboardInterrupt"))]
    removeFault := some (.other "RuntimeError" "busy") }

/-- An interrupt during a command, and a removal that fails, even with settings that keep
containers. -/
theorem run_cleans_up_of_interrupting :
    interrupting.id ≠ some "" ∧
      ∃ t, run keeping migrating none 1 (.ready .quiet interrupting 0) =
          (.error (.interrupt "KeyboardInterrupt"), t) ∧
        t.trace.EndsRemoved "gitea:1.22#1" := by
  have hid : interrupting.id ≠ some "" := nofun
  obtain ⟨hclean, -⟩ := run_cleans_up keeping migrating none 1 .quiet interrupting 0 hid
  have hfault : (match (run keeping migrating none 1 (.ready .quiet interrupting 0)).1 with
      | .ok _ => none
      | .error e => some e) = some (.interrupt "KeyboardInterrupt") := by decide +kernel
  refine ⟨hid, ?_⟩
  cases hrun : run keeping migrating none 1 (.ready .quiet interrupting 0) with
  | mk r t =>
    rw [hrun] at hclean hfault
    cases r with
    | ok o => cases hfault
    | error e =>
      cases hfault
      exact ⟨t, rfl, hclean.raised _ rfl rfl⟩

end

end Lifecycle
end Slipway
