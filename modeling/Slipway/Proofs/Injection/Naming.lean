import Slipway.Proofs.Injection.Completion
import Slipway.Proofs.Lifecycle.Waiting
import Slipway.Proofs.Readiness.Unmet

/-!
# `Slipway.Proofs.Injection.Naming`: what an entry of the failure to be ready tells

The failure to be ready lists texts. It is raised at two places: by a wait for conditions, which
lists the descriptions of the leaves that were not reached, and by a sleep after a command that does
not fit into its deadline. Whoever reads the description of a message, a delay or the healthcheck in
the list knows the condition, with its stream and text or its length (`unmet_tells_leaf`): no other
condition is described so, and the text of a sleep begins with a digit. -/

set_option autoImplicit false

namespace Slipway.Injection

open Slipway.Readiness (Scene hurried missed wait waitAll)
open Slipway.World (Stage)

section
variable {t : Target} {c : Command} {millis : Nat} {s : Stage}

/-- A sleep after a command names itself where it raises the failure to be ready. -/
theorem unmet_of_sleepAfter {unmet : List String} {timeout : Option Binary64}
    {reason : Option String}
    (h : (sleepAfter t c millis s).1 = .error (.failure (.notReady unmet timeout reason))) :
    unmet = [toString millis ++ "ms after " ++ c.display] := by
  by_cases hlong : Readiness.Delay.IsOverlong millis
  · rw [sleepAfter_of_isOverlong hlong] at h
    cases h
  · have hlength := lengthOf_of_not_isOverlong hlong
    -- Without a deadline the pause is slept in full or refused, but never left unmet.
    cases hdeadline : t.deadline with
    | none =>
      rw [sleepAfter_of_no_deadline hdeadline hlength, World.Act.sleep_eq] at h
      split at h <;> cases h
    | some d =>
      -- With a deadline the only failure is the pause that ends too late.
      rw [sleepAfter_eq hdeadline hlength] at h
      simp only at h
      split at h <;> cases h
      rfl

/-- What is fully described is not described as such a sleep is, whose text begins with a digit. -/
theorem describe_ne_sleep {a : Condition} (ha : a.IsFullyDescribed) :
    a.describe ≠ toString millis ++ "ms after " ++ c.display := by
  intro h
  have hinitial : a.initial? =
      (Nat.toDigits 10 millis ++ ("ms after " ++ c.display).toList).head? := by
    rw [← a.head?_describe, h, String.append_assoc, String.toList_append]
    exact congrArg (fun digits => (digits ++ ("ms after " ++ c.display).toList).head?)
      Nat.toList_repr
  -- The text of a pause begins with a digit, and no described leaf does.
  obtain ⟨digit, digits, hdigits⟩ := List.exists_cons_of_ne_nil (@Nat.toDigits_ne_nil millis 10)
  have hdigit : digit.isDigit = true :=
    Text.Digit.isDigit_toDigits digit (hdigits ▸ List.mem_cons_self)
  rw [hdigits, List.cons_append, List.head?_cons] at hinitial
  cases a with
  | log _ | delay _ | healthcheck =>
    cases hinitial
    cases hdigit
  | _ => exact ha

end

/-- Messages, delays and the healthcheck are told by their descriptions. Where a wait for conditions
is not ready, the description of one is in the list exactly if it is among the leaves that were not
reached; a sleep after a command never puts it there. -/
theorem unmet_tells_leaf :
    (∀ a b : Condition, a.IsFullyDescribed → b.IsFullyDescribed → a.describe = b.describe → a = b) ∧
    (∀ (scene : Scene) (conditions : List Condition) (d : Deadline) (now : Int)
      (unmet : List String)
      (timeout : Option Binary64) (reason : Option String),
      scene.LeavesReadinessToWaits →
      (waitAll scene conditions d now).fault = some (.failure (.notReady unmet timeout reason)) →
      ∀ a : Condition, a.IsFullyDescribed →
        (a.describe ∈ unmet ↔ a ∈ missed scene conditions d now)) ∧
    (∀ (t : Target) (c : Command) (millis : Nat) (s : Stage) (unmet : List String)
      (timeout : Option Binary64) (reason : Option String),
      (sleepAfter t c millis s).1 = .error (.failure (.notReady unmet timeout reason)) →
      ∀ a : Condition, a.IsFullyDescribed → a.describe ∉ unmet) := by
  refine ⟨fun a b ha hb => ?_, ?_, ?_⟩
  · refine Condition.eq_of_describe_eq ha ?_
    rintro label rfl
    exact hb
  · intro scene conditions d now unmet timeout reason hworld hfault a ha
    rw [(Readiness.unmet_perm_missed hworld hfault).mem_iff, List.mem_map]
    refine ⟨?_, fun hmem => ⟨a, hmem, rfl⟩⟩
    rintro ⟨l, hl, hdescribe⟩
    -- A leaf that was not reached is of a known kind, so only the condition itself is described so.
    obtain rfl :=
      Condition.eq_of_describe_eq ha (Readiness.ne_foreign_of_mem_missed hl) hdescribe.symm
    exact hl
  · intro t c millis s unmet timeout reason h a ha hmem
    rw [unmet_of_sleepAfter h, List.mem_singleton] at hmem
    exact describe_ne_sleep ha hmem

/-- A scene in which nothing is scripted: the log stays empty, and there is no healthcheck. -/
def silent : Scene := ⟨pressed.container, .quiet, .quiet, .usual⟩

/-- A message with a quote and a line break in it. -/
def rising : Condition := .onStdout "it's up\n"

/-- The message beside others, in a group within a group. -/
def risen : List Condition := [.delay 2000, .all [rising, .healthcheck]]

/-- A message with a backslash and a letter instead of the line break is described otherwise. A wait
of five milliseconds names the message as not reached. A sleep of two seconds after a reload names
itself. -/
theorem unmet_tells_leaf_of_rising :
    rising.describe ≠ (Condition.onStdout "it's up\\n").describe ∧
      silent.LeavesReadinessToWaits ∧
      (∃ unmet timeout reason,
        (waitAll silent risen hurried 0).fault = some (.failure (.notReady unmet timeout reason)) ∧
          rising.describe ∈ unmet ∧ rising ∈ missed silent risen hurried 0) ∧
      (sleepAfter pressed dozing 2000 (.ready .quiet .quiet 0)).1
        = .error (.failure (.notReady ["2000ms after reload"] (some (Settings.secondsOf 1))
          (some "delay exceeds startup timeout"))) ∧
      rising.describe ∉ ["2000ms after reload"] := by
  obtain ⟨htells, hwaits, hsleeps⟩ := unmet_tells_leaf
  have hworld : silent.LeavesReadinessToWaits :=
    Lifecycle.leavesReadinessToWaits_of_silent rfl rfl rfl rfl
  have hsleep : (sleepAfter pressed dozing 2000 (.ready .quiet .quiet 0)).1
      = .error (.failure (.notReady ["2000ms after reload"] (some (Settings.secondsOf 1))
        (some "delay exceeds startup timeout"))) := by decide +kernel
  refine ⟨fun h => ?_, hworld, ?_, hsleep, hsleeps _ _ _ _ _ _ _ hsleep rising trivial⟩
  · have hsame := htells rising (.onStdout "it's up\\n") trivial trivial h
    simp [rising, Condition.onStdout] at hsame
  · have hunready : ∀ c ∈ Condition.leavesAll risen,
        ∀ f ∈ (wait silent c hurried 0).fault, f.IsUnready := by decide +kernel
    have halone : (wait silent rising hurried 0).fault.isSome = true := by
      decide +kernel
    have hwords : Condition.areDescribable [rising, .healthcheck] = true := by decide
    have hleaf : rising ∈ Condition.leavesAll risen := by
      -- The text of a leaf may stand among the unmet ones only as its own.
      have hgroup : rising ∈ (Condition.all [rising, .healthcheck]).leaves := by
        rw [Condition.leaves_all hwords]
        exact List.mem_cons_self
      rw [Condition.leavesAll_eq_flatMap]
      exact List.mem_flatMap.mpr ⟨_, by simp [risen], hgroup⟩
    have hconjunctive := Readiness.waitAll_conjunctive hworld hunready (.inl rfl)
    cases hfault : (waitAll silent risen hurried 0).fault with
    | none =>
      rw [hconjunctive.well.mp hfault rising hleaf] at halone
      cases halone
    | some f =>
      obtain ⟨unmet, reasons, rfl, hunmet, -, -⟩ := hconjunctive.failed f hfault
      have hmem : rising.describe ∈ unmet := hunmet.mem_iff.mpr
        (List.mem_map_of_mem (List.mem_filter.mpr ⟨hleaf, halone⟩))
      exact ⟨unmet, _, _, rfl, hmem, (hwaits _ _ _ _ _ _ _ hworld hfault rising trivial).mp hmem⟩

end Slipway.Injection
