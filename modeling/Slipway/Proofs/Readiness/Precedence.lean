import Slipway.Proofs.Readiness.Foresight

/-!
# `Slipway.Proofs.Readiness.Precedence`: what a group ends with

A group takes in its members as they complete, and ends with what it has then seen
(`Group.verdict`). In whatever order they complete, a fault that is no failure comes before a
failure, a failure before the failure to be ready, and that before a good end
(`Group.verdict_precedes`). Only which of two alike counts, and in which order the unmet conditions
are named, depends on the order.

Of a tree of groups this says that nothing grave is lost on the way up. `leafEnds` are the ends of
the leaves as they came about, each in its group and cut short if that was cancelled; `allEnds` are
those of conditions that are waited for together. The tree ends with more than the failure to be
ready exactly if one of them does (`wait_any`, `waitAll_any`). A group is only cancelled by a member
that decides it, and that member comes to the same with the cancellation and without it. So the tree
also ends with more exactly if a leaf would that nobody cancels (`isDecisive_wait_of_child_eq`).
`waitAll_gravest_first` puts all this together. -/

set_option autoImplicit false

namespace Slipway.Readiness

namespace Group

variable {total : Binary64} {order ends : List Ending} {e : Ending} {f : Fault} {d : Deadline}
  {now : Int}

/-! ### Ends and their faults -/

/-- A foreign fault is no failure of the program. -/
theorem isForeign_iff : isForeign e = true ↔ ∃ f, e.fault = some f ∧ ∀ g, f ≠ .failure g := by
  unfold isForeign weigh
  cases e.fault with
  | none => simp
  | some f => cases f with
    | failure g => cases g <;> simp
    | _ => simp

/-- A fatal fault is a failure, but not one to be ready. -/
theorem isFatal_iff :
    isFatal e = true ↔ ∃ g, e.fault = some (.failure g) ∧ ¬ (Fault.failure g).IsUnready := by
  unfold isFatal weigh
  cases e.fault with
  | none => simp
  | some f => cases f with
    | failure g => cases g <;> simp [Fault.IsUnready]
    | _ => simp

/-- What is decisive is foreign or fatal. -/
theorem isDecisive_eq (e : Ending) : isDecisive e = (isForeign e || isFatal e) := by
  unfold isDecisive isForeign isFatal
  cases weigh e.fault <;> rfl

/-! ### Members as they complete -/

/-- What is known of a group when some of its members have completed. -/
structure Tally where
  unmet : List String
  reasons : List String
  /-- The first failure, other than not to be ready. -/
  failure : Option Fault

/-- Takes in a member that has completed. A fault that is no failure ends it at once. -/
def Tally.add (t : Tally) (e : Ending) : Except Fault Tally :=
  match e.fault with
  | none => .ok t
  | some (.failure (.notReady unmet _ reason)) =>
    let reasons := match reason with
      | none => []
      | some r => if r = "" then [] else [r]
    .ok ⟨t.unmet ++ unmet, t.reasons ++ reasons, t.failure⟩
  | some (.failure f) => .ok { t with failure := t.failure.or (some (.failure f)) }
  | some f => .error f

/-- What a group ends with whose members complete in an order. -/
def verdict (total : Binary64) (order : List Ending) : Option Fault :=
  match order.foldlM Tally.add ⟨[], [], none⟩ with
  | .error f => some f
  | .ok t => t.failure.or (report total t.unmet t.reasons)

/-- An end that is not foreign is counted with what it leaves unmet. -/
theorem Tally.add_of_not_isForeign (t : Tally) (h : isForeign e = false) :
    t.add e = .ok ⟨t.unmet ++ unmetOf e, t.reasons ++ (reasonOf e).toList,
      t.failure.or (if isFatal e then e.fault else none)⟩ := by
  unfold isForeign at h
  unfold Tally.add unmetOf reasonOf isFatal
  cases hf : e.fault with
  | none => simp [weigh]
  | some f => cases f with
    | failure g =>
      cases g with
      -- An empty reason is none.
      | notReady unmet timeout reason =>
        cases reason with
        | none => simp [weigh]
        | some r => by_cases hr : r = "" <;> simp [weigh, hr]
      | _ => simp [weigh]
    | _ => simp [hf, weigh] at h

/-- A foreign end stops the count. -/
theorem Tally.add_of_isForeign (t : Tally) (h : isForeign e = true) :
    ∃ f, e.fault = some f ∧ t.add e = .error f := by
  obtain ⟨f, hf, hother⟩ := isForeign_iff.mp h
  refine ⟨f, hf, ?_⟩
  unfold Tally.add
  rw [hf]
  cases f with
  | failure g => exact absurd rfl (hother g)
  | _ => rfl

/-- As long as no member ends with a fault that is no failure, the others are taken in. -/
theorem foldlM_add (t : Tally) (h : ∀ e ∈ order, isForeign e = false) :
    order.foldlM Tally.add t = .ok ⟨t.unmet ++ order.flatMap unmetOf,
      t.reasons ++ order.filterMap reasonOf,
      t.failure.or ((order.find? isFatal).bind Ending.fault)⟩ := by
  -- By the ends in order; the first fatal one stays.
  induction order generalizing t with
  | nil => simp [pure, Except.pure]
  | cons e rest ih =>
    rw [List.foldlM_cons, t.add_of_not_isForeign (h e List.mem_cons_self)]
    refine (ih _ fun x hx => h x (List.mem_cons_of_mem e hx)).trans ?_
    congr 2
    · rw [List.flatMap_cons, List.append_assoc]
    · cases hr : reasonOf e <;> simp [hr]
    · cases hfatal : isFatal e with
      | false => simp [hfatal]
      | true =>
        obtain ⟨g, hg, -⟩ := isFatal_iff.mp hfatal
        cases t.failure <;> simp [hfatal, hg]

/-- Without a foreign end the first fatal one decides, or else the report. -/
theorem verdict_of_not_isForeign (total : Binary64) (h : ∀ e ∈ order, isForeign e = false) :
    verdict total order = ((order.find? isFatal).bind Ending.fault).or
      (report total (order.flatMap unmetOf) (order.filterMap reasonOf)) := by
  rw [verdict, foldlM_add _ h]
  rfl

/-- Without a decisive end there is the report. -/
theorem verdict_of_not_isDecisive (total : Binary64) (h : ∀ e ∈ order, isDecisive e = false) :
    verdict total order = report total (order.flatMap unmetOf) (order.filterMap reasonOf) := by
  have hboth : ∀ e ∈ order, isForeign e = false ∧ isFatal e = false := fun e he => by
    simpa [isDecisive_eq] using h e he
  have hfatal : order.find? isFatal = none :=
    List.find?_eq_none.mpr fun e he => by simp [(hboth e he).2]
  rw [verdict_of_not_isForeign total fun e he => (hboth e he).1, hfatal]
  rfl

/-- The first fault that is no failure is what the group ends with. -/
theorem verdict_of_isForeign (total : Binary64) (h : order.find? isForeign = some e) :
    verdict total order = e.fault := by
  obtain ⟨hforeign, before, after, rfl, hbefore⟩ := List.find?_eq_some_iff_append.mp h
  obtain ⟨f, hf, hadd⟩ := Tally.add_of_isForeign _ hforeign
  rw [verdict, List.foldlM_append, foldlM_add _ fun x hx => by simpa using hbefore x hx]
  show (match (do let t ← Tally.add _ e; after.foldlM Tally.add t) with
    | .error f => some f
    | .ok t => t.failure.or (report total t.unmet t.reasons)) = _
  rw [hadd, hf]
  rfl

/-- The members of a group, taken in one by one in the order of their ends, make what it ends with.
-/
theorem settle_eq_verdict (d : Deadline) (members : List Ending) :
    settle d members = verdict d.total (inOrder members) := by
  unfold settle
  simp only
  -- A foreign end goes before a fatal one, and a fatal one before the report.
  cases hforeign : (inOrder members).find? isForeign with
  | some e => exact (verdict_of_isForeign _ hforeign).symm
  | none =>
    rw [verdict_of_not_isForeign _ fun e he => by simpa using List.find?_eq_none.mp hforeign e he]
    cases hfatal : (inOrder members).find? isFatal with
    | some e =>
      obtain ⟨g, hg, -⟩ := isFatal_iff.mp (List.find?_some hfatal)
      simp [hg]
    | none =>
      unfold report joined
      cases (inOrder members).flatMap unmetOf <;> rfl

/-! ### What comes first -/

/-- What a group has to end with whose members complete in an order: nothing grave is lost to
something less grave. The members may be named in another order than they complete in. -/
structure Precedence (total : Binary64) (members order : List Ending) (result : Option Fault) :
    Prop where
  /-- The first fault that is no failure is raised. -/
  foreign : ∀ e, order.find? isForeign = some e → result = e.fault
  /-- Else it is the first failure other than not to be ready. -/
  fatal : (∀ e ∈ members, isForeign e = false) →
    ∀ e, order.find? isFatal = some e → result = e.fault
  /-- Else all that was not reached is named, with all reasons. -/
  unready : (∀ e ∈ members, isDecisive e = false) → (∃ e ∈ members, unmetOf e ≠ []) →
    ∃ unmet reasons, result = some (.failure (.notReady unmet (some total) (joined reasons))) ∧
      unmet.Perm (members.flatMap unmetOf) ∧ reasons.Perm (members.filterMap reasonOf)
  /-- Else the group ends well. -/
  well : (∀ e ∈ members, isDecisive e = false ∧ unmetOf e = []) → result = none

/-- The order in which the members complete does not change what comes first. -/
theorem verdict_precedes (total : Binary64) (h : order.Perm ends) :
    Precedence total ends order (verdict total order) := by
  have hmem : ∀ {p : Ending → Bool}, (∀ e ∈ ends, p e = false) → ∀ e ∈ order, p e = false :=
    fun hp e he => hp e (h.mem_iff.mp he)
  refine ⟨fun e he => verdict_of_isForeign total he, fun hforeign e he => ?_, ?_, fun hwell => ?_⟩
  · obtain ⟨g, hg, -⟩ := isFatal_iff.mp (List.find?_some he)
    rw [verdict_of_not_isForeign total (hmem hforeign), he, Option.bind_some, hg, Option.some_or]
  · -- The order changes the lists of the report, but not what stands in them.
    rintro hdecisive ⟨e, he, hunmet⟩
    have hne : (order.flatMap unmetOf).isEmpty = false := by
      rw [List.isEmpty_eq_false_iff, Ne, List.flatMap_eq_nil_iff]
      exact fun hnil => hunmet (hnil e (h.mem_iff.mpr he))
    refine ⟨_, _, ?_, h.flatMap_right _, h.filterMap _⟩
    rw [verdict_of_not_isDecisive total (hmem hdecisive), report, if_neg (by simp [hne])]
  · rw [verdict_of_not_isDecisive total (hmem fun e he => (hwell e he).1), report_eq_none,
      List.flatMap_eq_nil_iff]
    exact fun e he => (hwell e (h.mem_iff.mp he)).2

/-- What a group ends with is a fault that is no failure exactly if a member ended so. -/
theorem isForeign_of_verdict (h : e.fault = verdict total order) :
    isForeign e = order.any isForeign := by
  -- A foreign end is passed on, and without one the verdict is a failure.
  cases hany : order.any isForeign with
  | true =>
    obtain ⟨x, hx, hforeign⟩ := List.any_eq_true.mp hany
    obtain ⟨first, hfirst⟩ := Option.isSome_iff_exists.mp (List.find?_isSome.mpr ⟨x, hx, hforeign⟩)
    rw [← List.find?_some hfirst, isForeign, isForeign, h, verdict_of_isForeign total hfirst]
  | false =>
    rw [verdict_of_not_isForeign
      total fun x hx => by simpa using List.any_eq_false.mp hany x hx] at h
    refine Bool.eq_false_iff.mpr fun hforeign => ?_
    obtain ⟨f, hf, hother⟩ := isForeign_iff.mp hforeign
    rw [h] at hf
    cases hfatal : order.find? isFatal with
    | some x =>
      obtain ⟨g, hg, -⟩ := isFatal_iff.mp (List.find?_some hfatal)
      rw [hfatal, Option.bind_some, hg, Option.some_or] at hf
      exact hother g (Option.some.inj hf).symm
    | none =>
      rw [hfatal, Option.bind_none, Option.none_or] at hf
      exact hother _ (eq_of_report_eq_some hf)

/-- What a group ends with is more than the failure to be ready exactly if a member ended so. -/
theorem isDecisive_of_verdict (h : e.fault = verdict total order) :
    isDecisive e = order.any isDecisive := by
  rw [isDecisive_eq, isForeign_of_verdict h]
  cases hany : order.any isForeign with
  | true =>
    obtain ⟨x, hx, hforeign⟩ := List.any_eq_true.mp hany
    exact (List.any_eq_true.mpr ⟨x, hx, by simp [isDecisive_eq, hforeign]⟩).symm
  | false =>
    have hforeign : ∀ x ∈ order, isForeign x = false := fun x hx => by
      simpa using List.any_eq_false.mp hany x hx
    rw [verdict_of_not_isForeign total hforeign] at h
    -- Without a foreign end only fatal ones are decisive.
    have hdecisive : order.any isDecisive = order.any isFatal := by
      rw [Bool.eq_iff_iff, List.any_eq_true, List.any_eq_true]
      exact exists_congr fun x => and_congr_right fun hx => by
        rw [isDecisive_eq, hforeign x hx, Bool.false_or]
    rw [Bool.false_or, hdecisive]
    cases hfatal : order.find? isFatal with
    | some x =>
      obtain ⟨g, hg, hready⟩ := isFatal_iff.mp (List.find?_some hfatal)
      rw [hfatal, Option.bind_some, hg, Option.some_or] at h
      rw [isFatal_iff.mpr ⟨g, h, hready⟩]
      exact (List.any_eq_true.mpr
        ⟨x, List.mem_of_find?_eq_some hfatal, List.find?_some hfatal⟩).symm
    | none =>
      rw [hfatal, Option.bind_none, Option.none_or] at h
      rw [List.any_eq_false.mpr (List.find?_eq_none.mp hfatal)]
      refine Bool.eq_false_iff.mpr fun hfatal => ?_
      obtain ⟨g, hg, hready⟩ := isFatal_iff.mp hfatal
      rw [hg] at h
      rw [eq_of_report_eq_some h.symm] at hready
      exact hready trivial

/-- A group reports only if there is something to report. -/
theorem unmet_ne_nil_of_verdict {unmet : List String} {timeout : Option Binary64}
    {reason : Option String}
    (h : verdict total order = some (.failure (.notReady unmet timeout reason))) : unmet ≠ [] := by
  have hready : order.any isDecisive = false := by
    rw [← isDecisive_of_verdict (e := ⟨[], 0, verdict total order⟩) rfl, isDecisive, h]
    rfl
  rw [verdict_of_not_isDecisive
    total fun e he => by simpa using List.any_eq_false.mp hready e he] at h
  have hunmet := eq_of_report_eq_some h
  cases hunmet
  refine fun hnil => ?_
  rw [report_eq_none.mpr hnil] at h
  cases h

/-- The order in which the members of a group are taken in is that of their ends. -/
theorem pairwise_inOrder (ends : List Ending) :
    (inOrder ends).Pairwise fun a b => a.stop ≤ b.stop := by
  have htrans : ∀ a b c : Ending, decide (a.stop ≤ b.stop) = true →
      decide (b.stop ≤ c.stop) = true →
      decide (a.stop ≤ c.stop) = true := by
    intro a b c hab hbc
    simp only [decide_eq_true_eq] at *
    omega
  have htotal : ∀ a b : Ending, (decide (a.stop ≤ b.stop) || decide (b.stop ≤ a.stop)) = true := by
    intro a b
    simp only [Bool.or_eq_true, decide_eq_true_eq]
    omega
  exact (List.pairwise_mergeSort htrans htotal ends).imp fun h => of_decide_eq_true h

/-- What is joined is foreign if a member is. -/
theorem isForeign_join (d : Deadline) (now : Int) (ends : List Ending) :
    isForeign (join d now ends) = ends.any isForeign := by
  rw [isForeign_of_verdict (settle_eq_verdict d ends)]
  exact (List.mergeSort_perm ends _).any_eq

/-- What is joined is decisive if a member is. -/
theorem isDecisive_join (d : Deadline) (now : Int) (ends : List Ending) :
    isDecisive (join d now ends) = ends.any isDecisive := by
  rw [isDecisive_of_verdict (settle_eq_verdict d ends)]
  exact (List.mergeSort_perm ends _).any_eq

end Group

/-! ### Trees -/

open Slipway.Readiness.Group (isForeign isFatal isDecisive)

variable {scene : Scene} {now : Int}

/-- The deadline that the members of a conjunction are waited for against. Only several members are
a group. -/
def memberDeadline (scene : Scene) (members : List Condition) (d : Deadline) (now : Int) :
    Deadline :=
  match members with
  | [] | [_] => d
  | _ => Group.deadlineOf (waits scene members) d now

mutual

/-- How the leaves of a condition end, each in the group in which it is waited for. -/
def leafEnds (scene : Scene) : Condition → Deadline → Int → List Ending
  | .all members, d, now =>
    if Condition.areDescribable members then
      leavesEnds scene members (memberDeadline scene members d now) now
    else [wait scene (.all members) d now]
  | c, d, now => [wait scene c d now]

/-- How the leaves of several conditions end. -/
def leavesEnds (scene : Scene) : List Condition → Deadline → Int → List Ending
  | [], _, _ => []
  | c :: rest, d, now => leafEnds scene c d now ++ leavesEnds scene rest d now

end

/-- How the leaves of conditions end that are waited for together. -/
def allEnds (scene : Scene) (cs : List Condition) (d : Deadline) (now : Int) : List Ending :=
  leavesEnds scene cs (memberDeadline scene cs d now) now

/-- The leaves of a conjunction that can be put in words end as those of its members do together. -/
theorem leafEnds_all {members : List Condition} (h : Condition.areDescribable members = true)
    (scene : Scene) (d : Deadline) (now : Int) :
    leafEnds scene (.all members) d now = allEnds scene members d now := by
  rw [leafEnds, if_pos h]
  rfl

/-- A group that cannot be described is its own leaf, with its own end. -/
theorem leafEnds_all_of_not_areDescribable {members : List Condition}
    (h : Condition.areDescribable members = false) (scene : Scene) (d : Deadline) (now : Int) :
    leafEnds scene (.all members) d now = [wait scene (.all members) d now] := by
  rw [leafEnds, if_neg (by simp [h])]

mutual

/-- Each leaf ends as it is waited for against some deadline. -/
theorem leafEnds_of_leaves (c : Condition) (d : Deadline) :
    List.Forall₂ (fun l e => ∃ d', e = wait scene l d' now) c.leaves (leafEnds scene c d now) := by
  -- By the condition: a group has the leaves of its members.
  cases c with
  | all members =>
    cases hwords : Condition.areDescribable members with
    | false =>
      rw [Condition.leaves_all_of_not_areDescribable hwords,
        leafEnds_all_of_not_areDescribable hwords]
      exact .cons ⟨d, rfl⟩ .nil
    | true =>
      rw [Condition.leaves_all hwords, leafEnds_all hwords]
      exact leavesEnds_of_leaves members _
  | _ =>
    simp only [Condition.leaves, leafEnds]
    exact .cons ⟨d, rfl⟩ .nil

/-- The ends of several conditions are those of their leaves. -/
theorem leavesEnds_of_leaves (cs : List Condition) (d : Deadline) :
    List.Forall₂ (fun l e => ∃ d', e = wait scene l d' now) (Condition.leavesAll cs)
      (leavesEnds scene cs d now) := by
  cases cs with
  | nil =>
    rw [Condition.leavesAll, leavesEnds]
    exact .nil
  | cons c rest =>
    rw [Condition.leavesAll, leavesEnds]
    exact List.rel_append (leafEnds_of_leaves c d) (leavesEnds_of_leaves rest d)

end

/-- So do the leaves of conditions that are waited for together. -/
theorem allEnds_of_leaves (cs : List Condition) (d : Deadline) :
    List.Forall₂ (fun l e => ∃ d', e = wait scene l d' now) (Condition.leavesAll cs)
      (allEnds scene cs d now) :=
  leavesEnds_of_leaves cs _

/-- Each leaf of conditions that are waited for together has its end among theirs. -/
theorem exists_leafEnd_of_mem {cs : List Condition} {l : Condition} (h : l ∈ Condition.leavesAll cs)
    (d : Deadline) : ∃ d', wait scene l d' now ∈ allEnds scene cs d now := by
  have hends := @allEnds_of_leaves scene now cs d
  revert h hends
  generalize Condition.leavesAll cs = ls, allEnds scene cs d now = ends
  intro h hends
  -- By the pairs of leaves and ends.
  induction hends with
  | nil => cases h
  | cons hend _ ih =>
    rcases List.mem_cons.mp h with rfl | h
    · obtain ⟨d', rfl⟩ := hend
      exact ⟨d', List.mem_cons_self⟩
    · obtain ⟨d', hd'⟩ := ih h
      exact ⟨d', List.mem_cons_of_mem _ hd'⟩

section
variable {p : Ending → Bool}

/-- What holds of a group exactly if it holds of a member holds of what is waited for together
exactly if it holds of a member. -/
theorem waitAll_any_member (hwell : ∀ t, p (.well t) = false)
    (hjoin : ∀ d now ends, p (Group.join d now ends) = ends.any p) (members : List Condition)
    (d : Deadline) : p (waitAll scene members d now) =
      members.any fun c => p (wait scene c (memberDeadline scene members d now) now) := by
  -- None, one, or a group.
  match members with
  | [] => exact hwell now
  | [c] =>
    rw [waitAll_singleton]
    exact (Bool.or_false _).symm
  | c :: c' :: rest =>
    rw [waitAll_cons_cons, Group.wait_eq_join, hjoin, Group.endings, List.any_map, waits_eq_map,
      List.any_map, ← waits_eq_map]
    rfl

mutual

/-- What a join passes on holds of a wait if it holds of the end of a leaf. -/
theorem wait_any (hwell : ∀ t, p (.well t) = false)
    (hjoin : ∀ d now ends, p (Group.join d now ends) = ends.any p) (c : Condition) (d : Deadline) :
    p (wait scene c d now) = (leafEnds scene c d now).any p := by
  -- By the condition: a group has the ends of its members' leaves.
  cases c with
  | all members =>
    cases hwords : Condition.areDescribable members with
    | false =>
      rw [leafEnds_all_of_not_areDescribable hwords]
      exact (Bool.or_false _).symm
    | true =>
      rw [wait_all hwords, waitAll_any_member hwell hjoin, leafEnds_all hwords]
      exact waits_any hwell hjoin members _
  | _ => simp [leafEnds]

/-- So does it of one of several conditions. -/
theorem waits_any (hwell : ∀ t, p (.well t) = false)
    (hjoin : ∀ d now ends, p (Group.join d now ends) = ends.any p) (cs : List Condition)
    (d : Deadline) :
    (cs.any fun c => p (wait scene c d now)) = (leavesEnds scene cs d now).any p := by
  cases cs with
  | nil => rfl
  | cons c rest =>
    rw [List.any_cons, leavesEnds, List.any_append, wait_any hwell hjoin c,
      waits_any hwell hjoin rest]

end

/-- So does it of conditions that are waited for together. -/
theorem waitAll_any (hwell : ∀ t, p (.well t) = false)
    (hjoin : ∀ d now ends, p (Group.join d now ends) = ends.any p) (cs : List Condition)
    (d : Deadline) : p (waitAll scene cs d now) = (allEnds scene cs d now).any p := by
  rw [waitAll_any_member hwell hjoin, allEnds]
  exact waits_any hwell hjoin cs _

end

/-! ### Leaves that nobody cancels -/

/-- A group ends with more than the failure to be ready exactly if a member does that nobody
cancels: the member that has the group cancelled is done by then. -/
theorem Group.isDecisive_wait_alone {members : List (Deadline → Int → Ending)}
    (h : ∀ m ∈ members, Unforeseeing m) (d : Deadline) (now : Int) :
    isDecisive (wait members d now) = members.any fun m => isDecisive (m (d.child now) now) := by
  rw [wait_eq_join, isDecisive_join, endings, List.any_map]
  unfold deadlineOf
  cases hmoment : cancelMoment (members.map fun m => m (d.child now) now) with
  | none => rfl
  | some t =>
    -- The member that cancelled the others ends as it would without the cancellation.
    obtain ⟨m, hm, hdecisive, -, -, hsame⟩ := first_of_cancelMoment h hmoment
    have halone : (members.any fun m => isDecisive (m (d.child now) now)) = true :=
      List.any_eq_true.mpr ⟨m, hm, hdecisive⟩
    rw [halone]
    exact List.any_eq_true.mpr ⟨m, hm, by rw [Function.comp_apply, hsame, hdecisive]⟩

mutual

/-- Against a deadline that is its own child a condition ends with more than the failure to be ready
exactly if a leaf does alone. -/
theorem isDecisive_wait_of_child_eq {d : Deadline} (hd : d.child now = d) (c : Condition) :
    isDecisive (wait scene c d now) = c.leaves.any fun l => isDecisive (wait scene l d now) := by
  cases c with
  | all members =>
    cases hwords : Condition.areDescribable members with
    | false =>
      rw [Condition.leaves_all_of_not_areDescribable hwords]
      exact (Bool.or_false _).symm
    | true =>
      have hall := any_isDecisive_of_child_eq hd members
      rw [wait_all hwords, Condition.leaves_all hwords, ← hall]
      -- None, one, or a group, whose members have a child of the deadline.
      match members with
      | [] => rfl
      | [c] =>
        rw [waitAll_singleton]
        exact (Bool.or_false _).symm
      | c :: c' :: rest =>
        rw [waitAll_cons_cons, Group.isDecisive_wait_alone (waits_unforeseeing scene _), hd,
          waits_eq_map, List.any_map]
        rfl
  | _ => simp [Condition.leaves]

/-- The same of several conditions. -/
theorem any_isDecisive_of_child_eq {d : Deadline} (hd : d.child now = d) (cs : List Condition) :
    (cs.any fun c => isDecisive (wait scene c d now)) =
      (Condition.leavesAll cs).any fun l => isDecisive (wait scene l d now) := by
  cases cs with
  | nil => rfl
  | cons c rest =>
    rw [List.any_cons, Condition.leavesAll, List.any_append, isDecisive_wait_of_child_eq hd c,
      any_isDecisive_of_child_eq hd rest]

end

/-! ### Names -/

/-- A world in which nobody raises the failure to be ready without naming what was not reached. -/
def Scene.NamesUnmet (scene : Scene) : Prop :=
  ∀ timeout reason, ¬ scene.Raises (.failure (.notReady [] timeout reason))

/-- The failure to be ready names what was not reached. -/
theorem unmet_ne_nil (hworld : scene.NamesUnmet) (c : Condition) (d : Deadline)
    {unmet : List String}
    {timeout : Option Binary64} {reason : Option String}
    (h : (wait scene c d now).fault = some (.failure (.notReady unmet timeout reason))) :
    unmet ≠ [] := by
  have hleaf : c.IsLeaf → unmet ≠ [] := by
    rintro hc rfl
    rcases fault_of_leaf hc h with hraises | hrefuses | ⟨_, hnames, -⟩
    · exact hworld _ _ hraises
    · exact hrefuses.not_isUnready trivial
    · cases hnames
  -- A leaf names itself, and a group reports only if something is unmet.
  match c with
  | .all members =>
    cases hwords : Condition.areDescribable members with
    | false => exact hleaf hwords
    | true =>
      rw [wait_all hwords] at h
      match members with
      | [] => cases h
      | [c] =>
        rw [waitAll_singleton] at h
        exact unmet_ne_nil hworld c d h
      | c :: c' :: rest =>
        rw [waitAll_cons_cons, Group.wait_eq_join] at h
        exact Group.unmet_ne_nil_of_verdict ((Group.settle_eq_verdict d _).symm.trans h)
  | .log m | .http p | .delay millis | .healthcheck | .foreign label => exact hleaf trivial

/-! ### All together -/

/-- How the members of a group end if it is cancelled at a moment, or never. -/
def memberEnds (scene : Scene) (cs : List Condition) (d : Deadline) (now : Int)
    (moment : Option Int) :
    List Ending :=
  cs.map fun c => wait scene c ((d.child now).cancelAt moment) now

/-- The members of a group end as the group is cancelled by the first of them that would decide it.
-/
theorem endings_eq_memberEnds (cs : List Condition) (d : Deadline) :
    Group.endings (waits scene cs) d now =
      memberEnds scene cs d now (Group.cancelMoment (memberEnds scene cs d now none)) := by
  unfold Group.endings memberEnds
  rw [Group.deadlineOf_eq, waits_eq_map, List.map_map, List.map_map]
  rfl

/-- A wait for several conditions that ends with the gravest of what its members end with. -/
structure GravestFirst (scene : Scene) (cs : List Condition) (d : Deadline) (now : Int) : Prop where
  /-- This is so whenever the group is cancelled, and in whatever order its members complete. -/
  order : ∀ moment order, order.Perm (memberEnds scene cs d now moment) →
    Group.Precedence d.total (memberEnds scene cs d now moment) order (Group.verdict d.total order)
  /-- The wait takes its members in by the times of their ends. It is cancelled by the first of
  those that would decide it. -/
  own : ∃ order : List Ending,
    order.Perm (memberEnds scene cs d now (Group.cancelMoment (memberEnds scene cs d now none))) ∧
      order.Pairwise (fun a b => a.stop ≤ b.stop) ∧
      (waitAll scene cs d now).fault = Group.verdict d.total order
  /-- A member that is not ready names what was not reached, unless the world raises that failure
  itself. -/
  named : scene.NamesUnmet →
    ∀ moment, ∀ e ∈ memberEnds scene cs d now moment, ∀ unmet timeout reason,
    e.fault = some (.failure (.notReady unmet timeout reason)) → unmet ≠ []
  /-- Of the leaves of the tree, however deep, a fault that is no failure is not lost on the way up.
  -/
  foreign : isForeign (waitAll scene cs d now) = (allEnds scene cs d now).any isForeign
  /-- Nor is a failure lost, other than not to be ready. -/
  decisive : isDecisive (waitAll scene cs d now) = (allEnds scene cs d now).any isDecisive
  /-- Nor is such an end lost that a leaf would come to if nobody cancelled it. -/
  alone : isDecisive (waitAll scene cs d now) =
    (Condition.leavesAll cs).any fun l => isDecisive (wait scene l (d.child now) now)

/-- What a group ends with does not depend on the order in which its members complete, but for which
of two alike counts; and nothing grave is lost in any nesting of groups. -/
theorem waitAll_gravest_first (scene : Scene) {cs : List Condition} (hgroup : 2 ≤ cs.length)
    (d : Deadline) (now : Int) : GravestFirst scene cs d now := by
  have hmembers : waitAll scene cs d now = Group.wait (waits scene cs) d now := by
    rcases cs with _ | ⟨c, _ | ⟨c', rest⟩⟩
    · cases hgroup
    · exact absurd hgroup (by simp)
    · exact waitAll_cons_cons c c' rest d
  refine ⟨fun moment order h => Group.verdict_precedes d.total h, ?_, ?_, ?_, ?_, ?_⟩
  · -- The order is that of the ends, the earliest first.
    refine ⟨Group.inOrder (Group.endings (waits scene cs) d now), ?_, Group.pairwise_inOrder _, ?_⟩
    · rw [← endings_eq_memberEnds]
      exact List.mergeSort_perm _ _
    · rw [hmembers, Group.wait_eq_join]
      exact Group.settle_eq_verdict d _
  · intro hworld moment e he unmet timeout reason hf
    obtain ⟨c, -, rfl⟩ := List.mem_map.mp he
    exact unmet_ne_nil hworld c _ hf
  · exact waitAll_any (fun _ => rfl) Group.isForeign_join cs d
  · exact waitAll_any (fun _ => rfl) Group.isDecisive_join cs d
  · rw [hmembers, Group.isDecisive_wait_alone (waits_unforeseeing scene cs), waits_eq_map,
      List.any_map]
    exact any_isDecisive_of_child_eq d.child_child cs

/-- A port that is not published, in a group within a group. -/
def unpublished : List Condition :=
  [.all [.delay 60000, .http (.get "/" (.tcp 81))], .onStdout "listening"]

/-- The port fails at once. The failure is kept, although the log that is waited for beside it is
not ready in time either. -/
theorem waitAll_gravest_first_of_unpublished :
    2 ≤ unpublished.length ∧ GravestFirst unresponsive unpublished hurried 0 ∧
      isDecisive (waitAll unresponsive unpublished hurried 0) = true := by
  have hfirst : GravestFirst unresponsive unpublished hurried 0 :=
    waitAll_gravest_first unresponsive (by decide) hurried 0
  exact ⟨by decide, hfirst, hfirst.alone.trans (by decide +kernel)⟩

end Slipway.Readiness
