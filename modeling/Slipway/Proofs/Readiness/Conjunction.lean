import Mathlib.Data.List.Perm.Basic
import Mathlib.Tactic.Choose
import Slipway.Proofs.Condition
import Slipway.Proofs.Readiness.Leaves

/-!
# `Slipway.Proofs.Readiness.Conjunction`: a conjunction is its leaves

`waitAll_conjunctive` tells how a wait for several conditions ends by how their leaves end when each
is waited for alone. It ends well exactly if every leaf does. Otherwise it names the leaves that
fail, each as often as it occurs and no conjunction, and joins their reasons. It ends when the last
leaf does.

The proof goes up the tree. `Tallies` says that an ending sums up the endings of some leaves; a
group sums up what its members sum up (`Group.join_tallies`). Inside a group all conditions are
waited for against one child of the deadline, since a child of that child is no other deadline. A
chain of groups of one member is no group, so at its end a leaf is waited for against the deadline
itself. -/

set_option autoImplicit false

namespace Slipway.Readiness

namespace Group

/-! ### The end of a group -/

/-- The last end is no later than a moment if all ends are. -/
theorem lastStop_le_iff {now t : Int} {members : List Ending} :
    lastStop now members ≤ t ↔ now ≤ t ∧ ∀ e ∈ members, e.stop ≤ t := by
  constructor
  · intro h
    obtain ⟨hnow, hstop⟩ := le_lastStop now members
    exact ⟨Int.le_trans hnow h, fun e he => Int.le_trans (hstop e he) h⟩
  · -- By the members: the last end so far takes the place of the start.
    induction members generalizing now with
    | nil => exact And.left
    | cons e rest ih =>
      rintro ⟨hnow, hstop⟩
      have he := hstop e List.mem_cons_self
      have hmax : max now e.stop ≤ t := by omega
      exact ih ⟨hmax, fun f hf => hstop f (List.mem_cons_of_mem e hf)⟩

/-- The last stop is told by the moments that come no earlier. -/
theorem lastStop_congr {now : Int} {a b : List Ending}
    (h : ∀ t, now ≤ t → ((∀ e ∈ a, e.stop ≤ t) ↔ ∀ e ∈ b, e.stop ≤ t)) :
    lastStop now a = lastStop now b := by
  refine Int.le_antisymm (lastStop_le_iff.mpr ?_) (lastStop_le_iff.mpr ?_)
  · obtain ⟨hnow, hb⟩ := le_lastStop now b
    exact ⟨hnow, (h _ hnow).mpr hb⟩
  · obtain ⟨hnow, ha⟩ := le_lastStop now a
    exact ⟨hnow, (h _ hnow).mp ha⟩

end Group

/-! ### Reports -/

/-- Reasons as the reason of a group: one text, or none if there are none. -/
def joined (reasons : List String) : Option String :=
  if reasons.isEmpty then none else some ("; ".intercalate reasons)

/-- What a group ends with of whose members some were not reached, for some reasons. -/
def report (total : Binary64) (unmet reasons : List String) : Option Fault :=
  if unmet.isEmpty then none else some (.failure (.notReady unmet (some total) (joined reasons)))

/-- There is a report if something is unmet. -/
theorem report_eq_none {total : Binary64} {unmet reasons : List String} :
    report total unmet reasons = none ↔ unmet = [] := by
  cases unmet <;> simp [report]

/-- A report lists what is unmet, and joins the reasons. -/
theorem eq_of_report_eq_some {total : Binary64} {unmet reasons : List String} {f : Fault}
    (h : report total unmet reasons = some f) :
    f = .failure (.notReady unmet (some total) (joined reasons)) := by
  unfold report at h
  split at h
  · cases h
  · exact (Option.some.inj h).symm

/-- What is named in a report is read off an ending with it. -/
theorem Group.unmetOf_of_report {e : Ending} {total : Binary64} {unmet reasons : List String}
    (h : e.fault = report total unmet reasons) : unmetOf e = unmet := by
  unfold unmetOf
  rw [h]
  cases unmet <;> rfl

/-- Reasons joined in parts are the reasons joined. -/
theorem joined_filterMap_joined (parts : List (List String)) :
    joined (parts.filterMap joined) = joined parts.flatten := by
  induction parts with
  | nil => rfl
  | cons part rest ih =>
    cases part with
    | nil => exact ih
    | cons r rs =>
      have hpart : joined (r :: rs) = some ("; ".intercalate (r :: rs)) := rfl
      rw [List.filterMap_cons_some hpart, List.flatten_cons]
      -- A separator follows if anything is left to join, in parts or flat. The induction hypothesis
      -- says that both run out together.
      cases hrest : rest.filterMap joined with
      | nil =>
        rw [hrest] at ih
        have hflat : rest.flatten = [] := by
          cases hf : rest.flatten with
          | nil => rfl
          | cons x xs =>
            rw [hf] at ih
            cases ih
        rw [hflat, List.append_nil, hpart]
        simp [joined]
      | cons s ss =>
        rw [hrest] at ih
        have hflat : rest.flatten ≠ [] := by
          intro hf
          rw [hf] at ih
          cases ih
        have htext : "; ".intercalate (s :: ss) = "; ".intercalate rest.flatten := by
          simpa [joined, hflat] using ih
        have hne : (r :: rs) ++ rest.flatten ≠ [] := by simp
        simp only [joined, List.isEmpty_cons, Bool.false_eq_true, if_false,
          List.isEmpty_eq_false_iff.mpr hne, Option.some.injEq]
        rw [String.intercalate_append_of_ne_nil (by simp) hflat, ← htext,
          String.intercalate_cons_of_ne_nil (by simp)]

/-- A reason that counts is no empty text. -/
theorem Group.reasonOf_ne_empty {e : Ending} {r : String} (h : reasonOf e = some r) : r ≠ "" := by
  unfold reasonOf at h
  split at h
  · split at h
    · cases h
    · rename_i hne
      simp only [Option.some.injEq] at h
      exact h ▸ hne
  · cases h

/-- Reasons that are no empty texts are not joined to the empty text. -/
theorem joined_ne_empty {reasons : List String} (h : ∀ r ∈ reasons, r ≠ "") :
    joined reasons ≠ some "" := by
  cases reasons with
  | nil => simp [joined]
  | cons r rs =>
    have hr : r ≠ "" := h r List.mem_cons_self
    simp only [joined, List.isEmpty_cons, Bool.false_eq_true, if_false, ne_eq, Option.some.injEq]
    cases rs with
    | nil => simpa using hr
    | cons s ss =>
      rw [String.intercalate_cons_of_ne_nil (by simp)]
      exact fun he => hr (String.append_eq_empty_iff.mp (String.append_eq_empty_iff.mp he).1).1

/-- A group none of whose members decides it reports what they say was not reached. -/
theorem Group.settle_eq_report (d : Deadline) {members : List Ending}
    (h : ∀ e ∈ members, isDecisive e = false) :
    settle d members = report d.total ((inOrder members).flatMap unmetOf)
      ((inOrder members).filterMap reasonOf) := by
  have hmem : ∀ e ∈ inOrder members, isDecisive e = false :=
    fun e he => h e (List.mem_mergeSort.mp he)
  -- No member is decisive, so neither a foreign fault nor a fatal one is found first.
  have hforeign : (inOrder members).find? isForeign = none := by
    rw [List.find?_eq_none]
    intro e he
    have hd := hmem e he
    unfold isDecisive at hd
    unfold isForeign
    split at hd <;> simp_all
  have hfatal : (inOrder members).find? isFatal = none := by
    rw [List.find?_eq_none]
    intro e he
    have hd := hmem e he
    unfold isDecisive at hd
    unfold isFatal
    split at hd <;> simp_all
  unfold settle
  simp only [hforeign, hfatal]
  unfold report
  cases (inOrder members).flatMap unmetOf with
  | nil => rfl
  | cons u us => rfl

/-- The child of a group none of whose members decides it is never cancelled. -/
theorem Group.cancelMoment_eq_none {members : List Ending}
    (h : ∀ e ∈ members, isDecisive e = false) : cancelMoment members = none := by
  have hnil : members.filter isDecisive = [] := by
    rw [List.filter_eq_nil_iff]
    intro e he
    simp [h e he]
  unfold cancelMoment
  rw [hnil]
  rfl

/-- A group ends well if its members do against a child of the deadline. -/
theorem Group.wait_fault_eq_none {members : List (Deadline → Int → Ending)} {d : Deadline}
    {now : Int}
    (h : ∀ m ∈ members, (m (d.child now) now).fault = none) :
    (wait members d now).fault = none := by
  have hwell : ∀ e ∈ members.map (fun m => m (d.child now) now), weigh e.fault = .fine := by
    intro e he
    obtain ⟨m, hm, rfl⟩ := List.mem_map.mp he
    rw [h m hm]
    rfl
  -- All members are fine, so none of them cancels the others.
  have hdecisive : ∀ e ∈ members.map (fun m => m (d.child now) now), isDecisive e = false :=
    fun e he => by simp [isDecisive, hwell e he]
  unfold wait
  simp only [cancelMoment_eq_none hdecisive, join]
  rw [settle_eq_report d hdecisive, report_eq_none, List.flatMap_eq_nil_iff]
  intro e he
  simp [unmetOf, hwell e (List.mem_mergeSort.mp he)]

/-! ### Endings that sum up others -/

/-- An ending that sums up the endings of some leaves: it comes when the last of them does, and
reports what they say was not reached. -/
structure Tallies (total : Binary64) (now : Int) (e : Ending) (leaves : List Ending) : Prop where
  stop : e.stop = Group.lastStop now leaves
  fault : ∃ unmet reasons, unmet.Perm (leaves.flatMap Group.unmetOf) ∧
    reasons.Perm (leaves.filterMap Group.reasonOf) ∧ (unmet = [] → reasons = []) ∧
    e.fault = report total unmet reasons

/-- What a group reads off an ending that sums up others. -/
theorem Tallies.weighed {total : Binary64} {now : Int} {e : Ending} {leaves : List Ending}
    (h : Tallies total now e leaves) :
    Group.isDecisive e = false ∧ (Group.unmetOf e).Perm (leaves.flatMap Group.unmetOf) ∧
    ∃ reasons, reasons.Perm (leaves.filterMap Group.reasonOf) ∧
      Group.reasonOf e = joined reasons ∧ (Group.unmetOf e = [] → reasons = []) := by
  obtain ⟨-, unmet, reasons, hu, hr, hnil, hf⟩ := h
  rw [Group.unmetOf_of_report hf]
  -- The ending is well if nothing was left unreached, and unready otherwise. It is never decisive.
  cases unmet with
  | nil =>
    have hw : Group.weigh e.fault = .fine := by rw [hf]; rfl
    refine ⟨by simp [Group.isDecisive, hw], hu, reasons, hr, ?_, fun _ => hnil rfl⟩
    rw [hnil rfl]
    simp [Group.reasonOf, hw, joined]
  | cons u us =>
    have hw : Group.weigh e.fault = .short (u :: us) (joined reasons) := by rw [hf]; rfl
    -- A group drops empty reasons, and would drop this one if it were empty.
    have hne : joined reasons ≠ some "" := by
      refine joined_ne_empty fun r hmem => ?_
      obtain ⟨l, -, hl⟩ := List.mem_filterMap.mp (hr.mem_iff.mp hmem)
      exact Group.reasonOf_ne_empty hl
    refine ⟨by simp [Group.isDecisive, hw], hu, reasons, hr, ?_, nofun⟩
    unfold Group.reasonOf
    rw [hw]
    cases hj : joined reasons with
    | none => rfl
    | some r =>
      rw [hj, Ne, Option.some.injEq] at hne
      simp [hne]

/-- An ending of one leaf that is well, or names one condition with a reason that is no empty text,
sums up itself. -/
theorem Tallies.self {total : Binary64} {now : Int} {e : Ending} (hstop : now ≤ e.stop)
    (h : ∀ f, e.fault = some f → ∃ description reason,
      f = .failure (.notReady [description] (some total) reason) ∧ reason ≠ some "") :
    Tallies total now e [e] := by
  refine ⟨by simp [Group.lastStop]; omega, ?_⟩
  -- A leaf that ended well has nothing unmet, and one that failed has itself.
  cases hf : e.fault with
  | none =>
    have hw : Group.weigh e.fault = .fine := by rw [hf]; rfl
    exact ⟨[], [], by simp [Group.unmetOf, hw], by simp [Group.reasonOf, hw], fun _ => rfl, rfl⟩
  | some f =>
    obtain ⟨description, reason, hfe, hne⟩ := h f hf
    have hw : Group.weigh e.fault = .short [description] reason := by rw [hf, hfe]; rfl
    refine ⟨[description], reason.toList, by simp [Group.unmetOf, hw], ?_, by simp, ?_⟩
    · cases reason with
      | none => simp [Group.reasonOf, hw]
      | some r =>
        rw [Ne, Option.some.injEq] at hne
        simp [Group.reasonOf, hw, hne]
    · cases reason <;> simp [hfe, report, joined]

/-- Putting endings in order is putting in order what they are of. -/
theorem Group.exists_inOrder_map {α : Type} (ending : α → Ending) (xs : List α) :
    ∃ order : List α, order.Perm xs ∧ inOrder (xs.map ending) = order.map ending := by
  refine ⟨xs.mergeSort fun a b => (ending a).stop ≤ (ending b).stop, List.mergeSort_perm xs _, ?_⟩
  unfold inOrder
  rw [← List.map_mergeSort (fun _ _ _ _ => rfl : ∀ a ∈ xs, ∀ b ∈ xs,
    decide ((ending a).stop ≤ (ending b).stop) = _)]

/-- A group sums up what its members sum up. -/
theorem Group.join_tallies {α : Type} {d : Deadline} {now : Int} {xs : List α}
    {ending : α → Ending} {parts : α → List Ending}
    (h : ∀ x ∈ xs, Tallies d.total now (ending x) (parts x)) :
    Tallies d.total now (join d now (xs.map ending)) (xs.flatMap parts) := by
  choose! reasons hreasons hjoined hnil using fun x hx => (h x hx).weighed.2.2
  have hunmet : ∀ x ∈ xs, (unmetOf (ending x)).Perm ((parts x).flatMap unmetOf) :=
    fun x hx => (h x hx).weighed.2.1
  -- The members in the order in which they ended. Each of them permutes what its leaves report, and
  -- the order permutes that once more.
  obtain ⟨order, hperm, horder⟩ := exists_inOrder_map ending xs
  have hmem : ∀ x ∈ order, x ∈ xs := fun x hx => hperm.mem_iff.mp hx
  refine ⟨?_, (order.map ending).flatMap unmetOf, (order.map reasons).flatten, ?_, ?_, ?_, ?_⟩
  · -- A moment that is late enough for the members is late enough for their leaves.
    refine lastStop_congr fun t ht => ?_
    simp only [List.mem_map, forall_exists_index, and_imp, forall_apply_eq_imp_iff₂,
      List.mem_flatMap]
    refine ⟨fun hstop e x hx he => ?_, fun hstop x hx => ?_⟩
    · have hx' := hstop x hx
      rw [(h x hx).stop, lastStop_le_iff] at hx'
      exact hx'.2 e he
    · rw [(h x hx).stop, lastStop_le_iff]
      exact ⟨ht, fun e he => hstop e x hx he⟩
  · rw [List.flatMap_map, List.flatMap_assoc]
    exact (List.Perm.flatMap_left order fun x hx => hunmet x (hmem x hx)).trans
      (hperm.flatMap_right _)
  · rw [← List.flatMap_def, List.filterMap_flatMap]
    exact (List.Perm.flatMap_left order fun x hx => hreasons x (hmem x hx)).trans
      (hperm.flatMap_right _)
  · intro hall
    rw [List.flatten_eq_nil_iff]
    intro rs hrs
    obtain ⟨x, hx, rfl⟩ := List.mem_map.mp hrs
    refine hnil x (hmem x hx) ?_
    exact List.flatMap_eq_nil_iff.mp hall (ending x) (List.mem_map_of_mem hx)
  · have hdecisive : ∀ e ∈ xs.map ending, isDecisive e = false := by
      intro e he
      obtain ⟨x, hx, rfl⟩ := List.mem_map.mp he
      exact (h x hx).weighed.1
    have hjoin : (order.map ending).filterMap reasonOf = (order.map reasons).filterMap joined := by
      rw [List.filterMap_map, List.filterMap_map]
      exact List.filterMap_congr fun x hx => hjoined x (hmem x hx)
    show settle d (xs.map ending) = _
    rw [settle_eq_report d hdecisive, horder, hjoin]
    unfold report
    rw [joined_filterMap_joined]

/-! ### Trees -/

/-- The waits of conditions are their own waits in order. -/
theorem waits_eq_map (scene : Scene) (cs : List Condition) :
    waits scene cs = cs.map (wait scene) := by
  induction cs with
  | nil => rfl
  | cons c rest ih => rw [waits, ih, List.map_cons]

/-- A conjunction that can be put in words is waited for as its members are. -/
theorem wait_all {members : List Condition} (h : Condition.areDescribable members = true)
    (scene : Scene) (d : Deadline) (now : Int) :
    wait scene (.all members) d now = waitAll scene members d now := by
  rw [wait, described_of_isDescribable (by rw [Condition.isDescribable, h])]
  rfl

section
variable {scene : Scene} {now : Int}

/-- A group whose members sum up their leaves against a child of the deadline does so too. -/
theorem Group.wait_tallies {d : Deadline} {cs : List Condition}
    (h : ∀ c ∈ cs, Tallies d.total now (Readiness.wait scene c (d.child now) now)
      (c.leaves.map fun l => Readiness.wait scene l (d.child now) now)) :
    Tallies d.total now (wait (waits scene cs) d now)
      ((Condition.leavesAll cs).map fun l => Readiness.wait scene l (d.child now) now) := by
  have halone : (waits scene cs).map (fun m => m (d.child now) now)
      = cs.map fun c => Readiness.wait scene c (d.child now) now := by
    rw [waits_eq_map, List.map_map]
    rfl
  -- Every member tallies, so none is decisive and the deadline of the members is not cancelled.
  have hdecisive : ∀ e ∈ cs.map (fun c => Readiness.wait scene c (d.child now) now),
      isDecisive e = false := by
    intro e he
    obtain ⟨c, hc, rfl⟩ := List.mem_map.mp he
    exact (h c hc).weighed.1
  unfold wait
  simp only [halone, cancelMoment_eq_none hdecisive]
  rw [Condition.leavesAll_eq_flatMap, List.map_flatMap]
  exact join_tallies h

/-- Nothing to wait for ends well at once. -/
theorem waitAll_nil (d : Deadline) : waitAll scene [] d now = .well now := rfl

/-- One condition is waited for by itself. -/
theorem waitAll_singleton (c : Condition) (d : Deadline) :
    waitAll scene [c] d now = wait scene c d now := rfl

/-- Several conditions are waited for by a group. -/
theorem waitAll_cons_cons (c c' : Condition) (rest : List Condition) (d : Deadline) :
    waitAll scene (c :: c' :: rest) d now
      = Group.wait (waits scene (c :: c' :: rest)) d now := rfl

/-- It tallies with no leaves. -/
theorem tallies_nil (total : Binary64) : Tallies total now (.well now) [] :=
  ⟨rfl, [], [], .refl _, .refl _, fun _ => rfl, rfl⟩

mutual

/-- Against a deadline that is its own child a condition sums up its leaves. -/
theorem wait_tallies_of_child_eq {d : Deadline} (hd : d.child now = d) (c : Condition)
    (h : ∀ l ∈ c.leaves, Tallies d.total now (wait scene l d now) [wait scene l d now]) :
    Tallies d.total now (wait scene c d now) (c.leaves.map fun l => wait scene l d now) := by
  cases c with
  | all members =>
    cases hwords : Condition.areDescribable members with
    | false =>
      rw [Condition.leaves_all_of_not_areDescribable hwords] at h ⊢
      exact h _ (List.mem_singleton.mpr rfl)
    | true =>
      rw [Condition.leaves_all hwords] at h ⊢
      have hall := waits_tally_of_child_eq hd members h
      rw [wait_all hwords]
      match members with
      | [] => exact tallies_nil d.total
      | [c] =>
        rw [waitAll_singleton, Condition.leavesAll_singleton]
        exact hall c List.mem_cons_self
      | c :: c' :: rest =>
        -- The group makes a child once more, which is the deadline itself.
        have hgroup := Group.wait_tallies (by rw [hd]; exact hall)
        rw [hd] at hgroup
        rw [waitAll_cons_cons]
        exact hgroup
  | _ => exact h _ (List.mem_singleton.mpr rfl)

/-- Conditions tally with their leaves under a deadline that is its own child. -/
theorem waits_tally_of_child_eq {d : Deadline} (hd : d.child now = d) (cs : List Condition)
    (h : ∀ l ∈ Condition.leavesAll cs,
      Tallies d.total now (wait scene l d now) [wait scene l d now]) :
    ∀ c ∈ cs, Tallies d.total now (wait scene c d now)
      (c.leaves.map fun l => wait scene l d now) := by
  cases cs with
  | nil => intro c hc; simp at hc
  | cons c rest =>
    simp only [Condition.leavesAll, List.mem_append] at h
    have hfirst := wait_tallies_of_child_eq hd c fun l hl => h l (Or.inl hl)
    have hrest := waits_tally_of_child_eq hd rest fun l hl => h l (Or.inr hl)
    intro c' hc'
    -- The first condition, or one of the rest.
    rcases List.mem_cons.mp hc' with rfl | hc'
    · exact hfirst
    · exact hrest c' hc'

end

mutual

/-- A condition sums up its leaves, all waited for against the deadline or all against a child of
it. -/
theorem wait_tallies {d : Deadline} (c : Condition)
    (h : ∀ l ∈ c.leaves, Tallies d.total now (wait scene l d now) [wait scene l d now] ∧
      Tallies d.total now (wait scene l (d.child now) now) [wait scene l (d.child now) now]) :
    ∃ d', (d' = d ∨ d' = d.child now) ∧
      Tallies d.total now (wait scene c d now) (c.leaves.map fun l => wait scene l d' now) := by
  cases c with
  | all members =>
    cases hwords : Condition.areDescribable members with
    | false =>
      rw [Condition.leaves_all_of_not_areDescribable hwords] at h ⊢
      exact ⟨d, Or.inl rfl, (h _ (List.mem_singleton.mpr rfl)).1⟩
    | true =>
      rw [Condition.leaves_all hwords] at h ⊢
      rw [wait_all hwords]
      exact waitAll_tallies members h
  -- A leaf is waited for under the deadline itself.
  | _ => exact ⟨d, Or.inl rfl, (h _ (List.mem_singleton.mpr rfl)).1⟩

/-- So do conditions that are waited for together. -/
theorem waitAll_tallies {d : Deadline} (cs : List Condition)
    (h : ∀ l ∈ Condition.leavesAll cs,
      Tallies d.total now (wait scene l d now) [wait scene l d now] ∧
      Tallies d.total now (wait scene l (d.child now) now) [wait scene l (d.child now) now]) :
    ∃ d', (d' = d ∨ d' = d.child now) ∧ Tallies d.total now (waitAll scene cs d now)
      ((Condition.leavesAll cs).map fun l => wait scene l d' now) := by
  match cs with
  | [] => exact ⟨d, Or.inl rfl, tallies_nil d.total⟩
  | [c] =>
    rw [Condition.leavesAll_singleton] at h ⊢
    rw [waitAll_singleton]
    exact wait_tallies c h
  | c :: c' :: rest =>
    -- The outermost group: all below it is waited for against its child.
    have hall := waits_tally_of_child_eq d.child_child (c :: c' :: rest) fun l hl => (h l hl).2
    rw [waitAll_cons_cons]
    exact ⟨d.child now, Or.inr rfl, Group.wait_tallies hall⟩

end

end

/-! ### The leaves alone -/

/-- The leaves of some conditions that fail when they are waited for alone. -/
def failing (scene : Scene) (conditions : List Condition) (d : Deadline) (now : Int) :
    List Condition :=
  (Condition.leavesAll conditions).filter fun c => (wait scene c d now).fault.isSome

/-- What the wait for conditions comes to, told by how their leaves end alone. -/
structure Conjunctive (scene : Scene) (conditions : List Condition) (d : Deadline) (now : Int) :
    Prop where
  /-- It ends well if every leaf does. -/
  well : (waitAll scene conditions d now).fault = none ↔
    ∀ c ∈ Condition.leavesAll conditions, (wait scene c d now).fault = none
  /-- Else it names the leaves that fail and no conjunction, joins their reasons, and gives the
  total of the outermost deadline. -/
  failed : ∀ f, (waitAll scene conditions d now).fault = some f → ∃ unmet reasons,
    f = .failure (.notReady unmet (some d.total) (joined reasons)) ∧
    unmet.Perm ((failing scene conditions d now).map Condition.describe) ∧
    reasons.Perm ((failing scene conditions d now).filterMap
      fun c => Group.reasonOf (wait scene c d now)) ∧
    ∀ members, (Condition.all members).describe ∉ unmet
  /-- It ends when the last leaf does, and no later than the deadline makes a child lag. -/
  le_stop : Group.lastStop now ((Condition.leavesAll conditions).map fun c => wait scene c d now)
    ≤ (waitAll scene conditions d now).stop
  stop_le : (waitAll scene conditions d now).stop ≤ Group.lastStop now
    ((Condition.leavesAll conditions).map fun c => wait scene c d now) + d.lag

/-- No condition that is no conjunction and can be evaluated here is described as a conjunction is:
the two texts begin with different letters. -/
theorem describe_ne_all {c : Condition} (hc : ∀ members, c ≠ .all members)
    (hf : ∀ label, c ≠ .foreign label) (members : List Condition) :
    c.describe ≠ (Condition.all members).describe := by
  intro h
  have hinitial := Condition.initial?_eq_of_describe_eq h
  cases c with
  | all members => exact hc members rfl
  | foreign label => exact hf label rfl
  | _ => simp [Condition.initial?] at hinitial

/-- A leaf says of itself alone whether it was not reached. -/
theorem unmetOf_eq {e : Ending} {c : Condition} {d : Deadline}
    (h : ∀ f, e.fault = some f → ∃ reason, f = unmet c.describe d reason ∧ reason ≠ some "") :
    Group.unmetOf e = if e.fault.isSome then [c.describe] else [] := by
  unfold Group.unmetOf
  cases hf : e.fault with
  | none => rfl
  | some f =>
    obtain ⟨reason, rfl, -⟩ := h f hf
    rfl

/-- A wait that ends well gives no reason. -/
theorem reasonOf_eq_none {e : Ending} (h : e.fault = none) : Group.reasonOf e = none := by
  unfold Group.reasonOf
  rw [h]
  rfl

/-- What leaves report together: the failing ones, each by its description, and their reasons. -/
theorem reports_of_leaves {leaves : List Condition} {ending ending' : Condition → Ending}
    {d : Deadline}
    (hnames : ∀ c ∈ leaves, ∀ f, (ending c).fault = some f →
      ∃ reason, f = unmet c.describe d reason ∧ reason ≠ some "")
    (hfault : ∀ c ∈ leaves, (ending' c).fault = (ending c).fault) :
    (leaves.map ending').flatMap Group.unmetOf
      = (leaves.filter fun c => (ending c).fault.isSome).map Condition.describe ∧
    (leaves.map ending').filterMap Group.reasonOf
      = (leaves.filter fun c => (ending c).fault.isSome).filterMap
          fun c => Group.reasonOf (ending c) := by
  -- By the leaves: one that failed adds its description, and its reason if it has one.
  induction leaves with
  | nil => exact ⟨rfl, rfl⟩
  | cons c rest ih =>
    obtain ⟨hunmet, hreasons⟩ := ih (fun c hc => hnames c (List.mem_cons_of_mem _ hc))
      (fun c hc => hfault c (List.mem_cons_of_mem _ hc))
    have hc := hfault c List.mem_cons_self
    have hu : Group.unmetOf (ending' c) = if (ending c).fault.isSome then [c.describe] else [] := by
      rw [← hc]
      exact unmetOf_eq (by rw [hc]; exact hnames c List.mem_cons_self)
    have hr : Group.reasonOf (ending' c) = Group.reasonOf (ending c) := by
      unfold Group.reasonOf
      rw [hc]
    rw [List.map_cons, List.flatMap_cons, List.filterMap_cons, hunmet, hreasons, hu, hr]
    cases hf : (ending c).fault with
    | none => simp [hf, reasonOf_eq_none hf]
    | some f => simp [hf, List.filterMap_cons]

/-- Endings that trail others come with them, or no later than the deadline makes a child lag. -/
theorem lastStop_of_trails (now : Int) {d : Deadline} {leaves : List Condition}
    {ending ending' : Condition → Ending} (h : ∀ c ∈ leaves, Trails d (ending c) (ending' c)) :
    Group.lastStop now (leaves.map ending) ≤ Group.lastStop now (leaves.map ending') ∧
    Group.lastStop now (leaves.map ending') ≤ Group.lastStop now (leaves.map ending) + d.lag := by
  obtain ⟨hnow, hlast⟩ := Group.le_lastStop now (leaves.map ending)
  obtain ⟨hnow', hlast'⟩ := Group.le_lastStop now (leaves.map ending')
  -- Each leaf ends no earlier, and later by the lag at most.
  refine ⟨Group.lastStop_le_iff.mpr ⟨hnow', fun e he => ?_⟩,
    Group.lastStop_le_iff.mpr ⟨by have := d.lag_nonneg; omega, fun e he => ?_⟩⟩
  · obtain ⟨c, hc, rfl⟩ := List.mem_map.mp he
    exact Int.le_trans (h c hc).le_stop (hlast' _ (List.mem_map_of_mem hc))
  · obtain ⟨c, hc, rfl⟩ := List.mem_map.mp he
    have hstop := (h c hc).stop_le
    have hc' := hlast _ (List.mem_map_of_mem hc)
    omega

/-- A leaf that was not reached names itself, so that it sums up itself. -/
theorem wait_tallies_self {scene : Scene} {c : Condition} {d d' : Deadline} {now : Int}
    (h : ∀ f, (wait scene c d' now).fault = some f →
      ∃ reason, f = unmet c.describe d reason ∧ reason ≠ some "") :
    Tallies d.total now (wait scene c d' now) [wait scene c d' now] := by
  refine Tallies.self (wait_asks scene c d' now).le_stop fun f hf => ?_
  obtain ⟨reason, hfe, hne⟩ := h f hf
  exact ⟨c.describe, reason, hfe, hne⟩

/-- The wait for conditions that all have to hold comes to what their leaves come to alone. The
world leaves the failure to be ready to the waits, and no leaf raises anything else. If the deadline
itself is to be cancelled, no leaf is a healthcheck. -/
theorem waitAll_conjunctive {scene : Scene} {conditions : List Condition} {d : Deadline} {now : Int}
    (hworld : scene.LeavesReadinessToWaits)
    (hunready : ∀ c ∈ Condition.leavesAll conditions, ∀ f,
      (wait scene c d now).fault = some f → f.IsUnready)
    (hcancel : d.cancel = none ∨ Condition.healthcheck ∉ Condition.leavesAll conditions) :
    Conjunctive scene conditions d now := by
  have hleaf : ∀ c ∈ Condition.leavesAll conditions, c.IsLeaf :=
    fun c hc => Condition.isLeaf_of_mem_leavesAll hc
  have hnames : ∀ c ∈ Condition.leavesAll conditions, ∀ f, (wait scene c d now).fault = some f →
      ∃ reason, f = unmet c.describe d reason ∧ reason ≠ some "" :=
    fun c hc f hf => wait_fault_of_isLeaf hworld (hleaf c hc) hf (hunready c hc f hf)
  have htrails : ∀ c ∈ Condition.leavesAll conditions,
      Trails d (wait scene c d now) (wait scene c (d.child now) now) :=
    fun c hc => wait_child_of_isLeaf (hleaf c hc)
      (hcancel.imp_right fun hnot he => hnot (he ▸ hc)) (hunready c hc)
  have hself : ∀ c ∈ Condition.leavesAll conditions,
      Tallies d.total now (wait scene c d now) [wait scene c d now] ∧
      Tallies d.total now (wait scene c (d.child now) now) [wait scene c (d.child now) now] := by
    intro c hc
    refine ⟨wait_tallies_self (hnames c hc), wait_tallies_self fun f hf => ?_⟩
    rw [(htrails c hc).fault] at hf
    exact hnames c hc f hf
  -- The tree decides against which of the two deadlines its leaves are waited for. Either way they
  -- trail what they come to alone.
  obtain ⟨d', hd', htally⟩ := waitAll_tallies conditions hself
  have htrails' : ∀ c ∈ Condition.leavesAll conditions,
      Trails d (wait scene c d now) (wait scene c d' now) := by
    intro c hc
    rcases hd' with rfl | rfl
    · exact Trails.refl d' _
    · exact htrails c hc
  obtain ⟨hunmet, hreasons⟩ := reports_of_leaves hnames fun c hc => (htrails' c hc).fault
  obtain ⟨hle, hle'⟩ := lastStop_of_trails now htrails'
  obtain ⟨hstop, us, rs, hus, hrs, -, hfault⟩ := htally
  rw [hunmet] at hus
  rw [hreasons] at hrs
  refine ⟨?_, fun f hf => ?_, hstop ▸ hle, hstop ▸ hle'⟩
  · rw [hfault, report_eq_none, ← List.length_eq_zero_iff, hus.length_eq, List.length_eq_zero_iff,
      List.map_eq_nil_iff, List.filter_eq_nil_iff]
    simp
  · rw [hfault] at hf
    refine ⟨us, rs, eq_of_report_eq_some hf, hus, hrs, fun members hm => ?_⟩
    -- What fails unready is no foreign condition and no conjunction that is refused, so its text is
    -- not that of a conjunction.
    obtain ⟨c, hc, he⟩ := List.mem_map.mp (hus.mem_iff.mp hm)
    obtain ⟨hc, hsome⟩ := List.mem_filter.mp hc
    refine describe_ne_all (fun members hall => ?_) (fun label hlabel => ?_) members he
    · subst hall
      have hnot : Condition.areDescribable members = false := hleaf _ hc
      have hrefused : wait scene (.all members) d now = .failed now (.defect .integerTooLong) :=
        wait_of_not_isDescribable (by rw [Condition.isDescribable, hnot]) d now
      exact hunready _ hc _ (by rw [hrefused]; rfl)
    · subst hlabel
      exact hunready _ hc _ rfl

end Slipway.Readiness
