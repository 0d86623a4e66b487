import Slipway.Proofs.Condition
import Slipway.Proofs.Readiness.Precedence

/-!
# `Slipway.Proofs.Readiness.Unmet`: what the failure to be ready names

Where a wait for conditions ends with the failure to be ready, it names the leaves that were not
reached, each as often as it was not and in its own words, and nothing else (`unmet_perm_missed`).
Whether a leaf was reached is said of it as it ended in its group, and so against the group's
deadline.

The list is made from the leaves up. `Group.unmetOf_join` is the step: a group that no member
decides names what its members name. By it a tree names what its leaves name (`unmetOf_wait`), and a
leaf names itself or nothing (`unmetOf_of_isLeaf`). -/

set_option autoImplicit false

namespace Slipway.Readiness

open Slipway.Readiness.Group (isDecisive unmetOf)

/-! ### What a tree names -/

/-- A group that no member decides names what its members name. -/
theorem Group.unmetOf_join (d : Deadline) (now : Int) {ends : List Ending}
    (h : ∀ e ∈ ends, isDecisive e = false) :
    (unmetOf (join d now ends)).Perm (ends.flatMap unmetOf) := by
  rw [unmetOf_of_report (settle_eq_report d h)]
  exact (List.mergeSort_perm ends _).flatMap_right _

variable {scene : Scene} {now : Int}

/-- What is waited for together names what its members name, if none of them decides it. -/
theorem unmetOf_waitAll_members {members : List Condition} {d : Deadline}
    (h : ∀ c ∈ members,
      isDecisive (wait scene c (memberDeadline scene members d now) now) = false) :
    (unmetOf (waitAll scene members d now)).Perm
      (members.flatMap fun c =>
        unmetOf (wait scene c (memberDeadline scene members d now) now)) := by
  match members with
  | [] => exact .refl _
  | [c] =>
    rw [waitAll_singleton, List.flatMap_singleton]
    exact .refl _
  | c :: c' :: rest =>
    -- Only several members are a group, and wait against its deadline.
    have hends : Group.endings (waits scene (c :: c' :: rest)) d now =
        (c :: c' :: rest).map fun x =>
        wait scene x (memberDeadline scene (c :: c' :: rest) d now) now := by
      rw [Group.endings, waits_eq_map, List.map_map, ← waits_eq_map]
      rfl
    rw [waitAll_cons_cons, Group.wait_eq_join, hends, ← List.flatMap_map]
    exact Group.unmetOf_join d now (List.forall_mem_map.mpr h)

mutual

/-- A condition that no leaf decides names what its leaves name, each as it ended in its group. -/
theorem unmetOf_wait (c : Condition) (d : Deadline) (h : isDecisive (wait scene c d now) = false) :
    (unmetOf (wait scene c d now)).Perm ((leafEnds scene c d now).flatMap unmetOf) := by
  -- By the condition: a group leaves unmet what its members do.
  cases c with
  | all members =>
    cases hwords : Condition.areDescribable members with
    | false =>
      rw [leafEnds_all_of_not_areDescribable hwords, List.flatMap_singleton]
    | true =>
      rw [wait_all hwords] at h ⊢
      rw [leafEnds_all hwords]
      rw [waitAll_any_member (fun _ => rfl) Group.isDecisive_join, List.any_eq_false] at h
      have hmembers : ∀ c ∈ members,
          isDecisive (wait scene c (memberDeadline scene members d now) now) = false :=
        fun c hc => Bool.eq_false_iff.mpr (h c hc)
      exact (unmetOf_waitAll_members hmembers).trans (unmetOf_waits members _ hmembers)
  | _ => simp only [leafEnds, List.flatMap_singleton, List.Perm.refl]

/-- Several conditions leave unmet what their leaves do. -/
theorem unmetOf_waits (cs : List Condition) (d : Deadline)
    (h : ∀ c ∈ cs, isDecisive (wait scene c d now) = false) :
    (cs.flatMap fun c => unmetOf (wait scene c d now)).Perm
      ((leavesEnds scene cs d now).flatMap unmetOf) := by
  cases cs with
  | nil => exact .refl _
  | cons c rest =>
    rw [leavesEnds, List.flatMap_cons, List.flatMap_append]
    exact (unmetOf_wait c d (h c List.mem_cons_self)).append
      (unmetOf_waits rest d fun c' hc' => h c' (List.mem_cons_of_mem c hc'))

end

/-- So do conditions that are waited for together. -/
theorem unmetOf_waitAll (cs : List Condition) (d : Deadline)
    (h : isDecisive (waitAll scene cs d now) = false) :
    (unmetOf (waitAll scene cs d now)).Perm ((allEnds scene cs d now).flatMap unmetOf) := by
  rw [waitAll_any_member (fun _ => rfl) Group.isDecisive_join, List.any_eq_false] at h
  have hmembers : ∀ c ∈ cs,
      isDecisive (wait scene c (memberDeadline scene cs d now) now) = false :=
    fun c hc => Bool.eq_false_iff.mpr (h c hc)
  exact (unmetOf_waitAll_members hmembers).trans (unmetOf_waits cs _ hmembers)

/-! ### The leaves that were not reached -/

/-- Whether a wait ended with the failure to be ready. -/
def Ending.isUnready (e : Ending) : Bool := e.fault.any fun f => f.IsUnready

/-- The leaves of some conditions that were not reached in the wait for them, each as it ended in
its group. -/
def missed (scene : Scene) (conditions : List Condition) (d : Deadline) (now : Int) :
    List Condition :=
  (((Condition.leavesAll conditions).zip (allEnds scene conditions d now)).filter
    fun p => p.2.isUnready).map Prod.fst

/-- A leaf names itself if it was not reached, and else nothing. -/
theorem unmetOf_of_isLeaf (hworld : scene.LeavesReadinessToWaits) {l : Condition} (hl : l.IsLeaf)
    (d : Deadline) :
    unmetOf (wait scene l d now) =
      if (wait scene l d now).isUnready then [l.describe] else [] := by
  unfold unmetOf Ending.isUnready
  -- A leaf that is not ready names itself, and any other fault names nothing.
  cases hf : (wait scene l d now).fault with
  | none => rfl
  | some f =>
    cases f with
    | failure g =>
      cases g with
      | notReady unmet timeout reason =>
        obtain ⟨_, hnames, -⟩ := wait_fault_of_isLeaf hworld hl hf trivial
        cases hnames
        rfl
      | _ => rfl
    | _ => rfl

/-- Leaves name those of them that were not reached. -/
theorem flatMap_unmetOf_of_leaves (hworld : scene.LeavesReadinessToWaits) {leaves : List Condition}
    {ends : List Ending} (h : List.Forall₂ (fun l e => ∃ d', e = wait scene l d' now) leaves ends)
    (hleaf : ∀ l ∈ leaves, l.IsLeaf) :
    ends.flatMap unmetOf =
      (((leaves.zip ends).filter fun p => p.2.isUnready).map Prod.fst).map Condition.describe := by
  induction h with
  | nil => rfl
  | @cons l e leaves ends hend _ ih =>
    obtain ⟨d', rfl⟩ := hend
    rw [List.flatMap_cons, unmetOf_of_isLeaf hworld (hleaf l List.mem_cons_self),
      ih fun l' hl' => hleaf l' (List.mem_cons_of_mem l hl'), List.zip_cons_cons, List.filter_cons]
    cases (wait scene l d' now).isUnready <;> rfl

/-- Where a wait for conditions ends with the failure to be ready, it names the leaves that were not
reached, and nothing else. -/
theorem unmet_perm_missed (hworld : scene.LeavesReadinessToWaits) {conditions : List Condition}
    {d : Deadline} {unmet : List String} {timeout : Option Binary64} {reason : Option String}
    (h : (waitAll scene conditions d now).fault =
      some (.failure (.notReady unmet timeout reason))) :
    unmet.Perm ((missed scene conditions d now).map Condition.describe) := by
  -- The wait has failed with what is unmet, so no member was decisive.
  have hdecisive : isDecisive (waitAll scene conditions d now) = false := by
    rw [isDecisive, h]
    rfl
  have hunmet : unmetOf (waitAll scene conditions d now) = unmet := by
    rw [unmetOf, h]
    rfl
  rw [← hunmet, missed, ← flatMap_unmetOf_of_leaves hworld (allEnds_of_leaves conditions d)
    fun l hl => Condition.isLeaf_of_mem_leavesAll hl]
  exact unmetOf_waitAll conditions d hdecisive

/-- A leaf that was not reached is of a known kind: for any other there is no wait. -/
theorem ne_foreign_of_mem_missed {conditions : List Condition} {d : Deadline} {l : Condition}
    (h : l ∈ missed scene conditions d now) (label : String) : l ≠ .foreign label := by
  rintro rfl
  obtain ⟨⟨l, e⟩, hp, rfl⟩ := List.mem_map.mp h
  obtain ⟨hzip, hunready⟩ := List.mem_filter.mp hp
  obtain ⟨d', rfl⟩ := (List.forall₂_iff_zip.mp (allEnds_of_leaves conditions d)).2 hzip
  cases hunready

end Slipway.Readiness
