import Slipway.Proofs.Lifecycle.Closing

/-!
# `Slipway.Proofs.Lifecycle.Removal`: which containers a start leaves behind

`run_accounts` states of one lifecycle that its container is removed exactly if it did not become
ready. The lifecycles that are started together each keep to that, whatever becomes of the others.
If they all end with an outcome, what is not removed is reported ready. If one of them ends
otherwise, no outcome is given at all, and the containers that did become ready are left behind:
`startEach_removes`.

Containers with an empty id count as none, and are never removed.
-/

set_option autoImplicit false

namespace Slipway.Lifecycle

open Slipway.World (Act Note Stage Trace)

/-- Whether a start that is over has made a container ready. -/
def IsReady (r : Finished) : Prop := ∃ o, r.1 = .ok o ∧ o.phase = .ready

instance : DecidablePred IsReady
  | (.ok o, _) => decidable_of_iff (o.phase = .ready) ⟨fun h => ⟨o, rfl, h⟩, fun ⟨_, rfl, h⟩ => h⟩
  | (.error _, _) => .isFalse (by rintro ⟨o, ho, -⟩; cases ho)

/-- A run is ready if its outcome is good. -/
theorem isReady_iff {r : Finished} {o : Outcome} (ho : r.1 = .ok o) : IsReady r ↔ o.ok = true := by
  unfold IsReady
  cases hok : o.ok <;> simp [ho, Outcome.phase, hok]

/-- A run that is ready has a good outcome. -/
theorem IsReady.exists_ok {r : Finished} (h : IsReady r) : ∃ o, r.1 = .ok o ∧ o.ok = true := by
  obtain ⟨o, ho, hphase⟩ := h
  exact ⟨o, ho, (isReady_iff ho).mp ⟨o, ho, hphase⟩⟩

/-! ### One lifecycle -/

/-- A removal is no rise. -/
theorem not_isRise_remove {id id' : String} : ¬ (Note.event id' .remove).IsRise id := by
  simp [Note.IsRise, Note.IsOpening, Note.IsDeed]

/-- The container that is brought up is the only one that is created. -/
theorem eq_of_isRise_create {id id' image : String}
    (h : (Note.event id' (.create image)).IsRise id) : id' = id := by
  simpa [Note.IsRise, Note.IsOpening, Note.IsDeed] using h

section
variable {settings : Settings} {spec : Spec} {timeout : Option Binary64} {ordinal : Nat}
variable {s t u : Stage} {id : String}

/-- What a lifecycle noted that brought up a container and closed. -/
theorem trace_of_closes {phases phases' : List Phase} {ended : Option String} (hs : s.trace = [])
    (hrise : Rise id phases s u) (hcloses : u.Onward (Note.IsClosing ended) phases' t) :
    ∀ x ∈ t.trace, x.note.IsRise id ∨ x.note.IsClosing ended := by
  obtain ⟨more, hmore, hP⟩ := hrise.onward.trace
  obtain ⟨more', hmore', hP'⟩ := hcloses.trace
  intro x hx
  rw [hmore', hmore] at hx
  rcases List.mem_append.mp hx with hx | hx
  · exact .inl (hP x (by simpa [hs] using hx)).2.2
  · exact .inr (hP' x hx).2.2

/-- What was created is the container that the stage has. -/
theorem creates_iff_of_closes {phases phases' : List Phase} {ended : Option String}
    (hs : s.trace = []) (hrise : Rise id phases s u)
    (hcloses : u.Onward (Note.IsClosing ended) phases' t) (i : String) :
    t.trace.Creates i ↔ t.id = some i := by
  have hid : t.id = some id := by rw [hcloses.id, hrise.onward.id]
  rw [hid, Option.some_inj]
  constructor
  · rintro ⟨x, hx, image, hnote⟩
    -- A note comes from the rise or from the closing, and the latter creates nothing.
    rcases trace_of_closes hs hrise hcloses x hx with hn | hn
    · rw [hnote] at hn
      exact (eq_of_isRise_create hn).symm
    · rw [hnote] at hn
      exact hn.elim
  · rintro rfl
    obtain ⟨x, hx, hcreate⟩ := hrise.creates
    exact ⟨x, hcloses.mem_trace hx, hcreate⟩

/-- Only the closing removes a container. -/
theorem removes_of_closes {phases phases' : List Phase} {ended : Option String} (hs : s.trace = [])
    (hrise : Rise id phases s u) (hcloses : u.Onward (Note.IsClosing ended) phases' t) {i : String}
    (h : t.trace.Removes i) : some i = ended ∧ i ≠ "" := by
  obtain ⟨x, hx, hnote⟩ := h
  rcases trace_of_closes hs hrise hcloses x hx with hn | hn
  · rw [hnote] at hn
    exact absurd hn not_isRise_remove
  · rwa [hnote] at hn

/-- A start that is over accounts for its container: it was created, and it is removed unless it is
ready. -/
structure Accounts (r : Finished) : Prop where
  created : ∀ i, r.2.trace.Creates i ↔ r.2.id = some i
  removed : ∀ i, r.2.trace.Removes i ↔ r.2.id = some i ∧ i ≠ "" ∧ ¬ IsReady r
  ready : ∀ o, r.1 = .ok o → o.phase = .ready →
    ∃ c, o.container = some c ∧ r.2.id = some c.id ∧ o.containerId = some c.id

/-- A lifecycle that created nothing has nothing to account for. -/
theorem Accounts.of_nothing {phases : List Phase} {r : Except Fault Outcome} (hs : s.trace = [])
    (hid : s.id = none) (hcloses : s.Onward (Note.IsClosing none) phases t)
    (hready : ¬ IsReady (r, t)) : Accounts (r, t) := by
  have hnone : t.id = none := by rw [hcloses.id, hid]
  obtain ⟨more, hmore, hP⟩ := hcloses.trace
  rw [hs, List.nil_append] at hmore
  -- Closing notes without an end neither create nor remove.
  refine ⟨fun i => ⟨fun h => ?_, fun h => ?_⟩, fun i => ⟨fun h => ?_, fun h => ?_⟩,
    fun o ho hphase => absurd ⟨o, ho, hphase⟩ hready⟩
  · obtain ⟨x, hx, image, hnote⟩ := h
    have hn := (hP x (hmore ▸ hx)).2.2
    rw [hnote] at hn
    exact hn.elim
  · rw [hnone] at h
    cases h
  · obtain ⟨x, hx, hnote⟩ := h
    have hn := (hP x (hmore ▸ hx)).2.2
    rw [hnote] at hn
    cases hn.1
  · rw [hnone] at h
    cases h.1

/-- A lifecycle that removes on failure accounts for its container. -/
theorem run_accounts (hset : settings.removeOnFailure = true) (hs : s.trace = [])
    (hid : s.id = none) : Accounts (run settings spec timeout ordinal s) := by
  cases hup : bringUp settings spec timeout ordinal s with
  | mk r u =>
    cases r with
    | ok c =>
      have hrise := (bringUp_watched hs hup).toRise
      obtain ⟨t, hrun, hready⟩ := run_of_ok hup
      have hcloses := hready.onward
      rw [hrun]
      refine ⟨creates_iff_of_closes hs hrise hcloses, fun i => ⟨fun h => ?_, fun h => ?_⟩,
        fun o ho _ => ?_⟩
      · cases (removes_of_closes hs hrise hcloses h).1
      · exact absurd ⟨_, rfl, rfl⟩ h.2.2
      · cases ho
        exact ⟨c, rfl, by rw [hcloses.id, hrise.onward.id], hrise.onward.id⟩
    | error e =>
      obtain ⟨r', t, phases, hrun, hcloses, ho, hremoves⟩ := run_of_error hup
      have hready : ¬ IsReady (r', t) := by
        rintro ⟨o, hr, hphase⟩
        obtain ⟨f, -, rfl⟩ := ho o hr
        cases hphase
      rw [hrun]
      -- Either the creation itself failed, or there is a container to account for.
      rcases bringUp_rise hs with ⟨e', -, hup'⟩ | ⟨-, phases', hrise⟩
      · rw [hup] at hup'
        cases hup'
        rw [hid] at hcloses
        exact .of_nothing hs hid hcloses hready
      · rw [hup] at hrise
        have hid' : t.id = u.id := hcloses.id
        refine ⟨creates_iff_of_closes hs hrise hcloses, fun i => ⟨fun h => ?_, fun h => ?_⟩,
          fun o ho hphase => absurd ⟨o, ho, hphase⟩ hready⟩
        · obtain ⟨hi, hne⟩ := removes_of_closes hs hrise hcloses h
          exact ⟨hid'.trans hi.symm, hne, hready⟩
        · exact hremoves hset i (hid'.symm.trans h.1) h.2.1

end

/-! ### Starts side by side -/

section
variable {settings : Settings} {world : World} {now : Int} {specs : List Spec}
variable {timeout : Option Binary64}

/-- Each spec has its run. -/
theorem length_startEach : (startEach settings world now specs timeout).length = specs.length := by
  simp [startEach, ordinals]

/-- Each start takes place on a stage of its own, and accounts for its container. -/
theorem startEach_accounts (hset : settings.removeOnFailure = true) :
    ∀ r ∈ startEach settings world now specs timeout, Accounts r := by
  intro r hr
  obtain ⟨⟨spec, ordinal⟩, -, rfl⟩ := List.mem_map.mp hr
  exact run_accounts hset rfl rfl

/-- The outcomes of starts: that of the first, and then those of the rest, if there are any. -/
theorem outcomes_cons (r : Finished) (rest : List Finished) :
    outcomes (r :: rest) = (r.1 >>= fun o => outcomes rest >>= fun others => pure (o :: others)) :=
  List.mapM_cons

/-- If all starts end with an outcome, that of each is among the outcomes. -/
theorem mem_of_outcomes_eq_ok {runs : List Finished} {os : List Outcome} {r : Finished}
    {o : Outcome}
    (hos : outcomes runs = .ok os) (hr : r ∈ runs) (ho : r.1 = .ok o) : o ∈ os := by
  induction runs generalizing os with
  | nil => cases hr
  | cons first rest ih =>
    rw [outcomes_cons] at hos
    -- The first start ends with an outcome, and so do the others.
    match hfirst : first.1, hrest : outcomes rest with
    | .error e, _ => simp [hfirst, bind, Except.bind] at hos
    | .ok first', .error e => simp [hfirst, hrest, bind, Except.bind] at hos
    | .ok first', .ok others =>
      rw [hfirst, hrest] at hos
      cases hos
      rcases List.mem_cons.mp hr with rfl | hr
      · rw [hfirst] at ho
        cases ho
        exact List.mem_cons_self
      · exact List.mem_cons_of_mem first' (ih hrest hr)

end

namespace Accounts

variable {r : Finished} {id : String}

/-- A container that was created is removed unless it is ready. -/
theorem removes_iff (h : Accounts r) (hcreates : r.2.trace.Creates id) :
    r.2.trace.Removes id ↔ id ≠ "" ∧ ¬ IsReady r := by
  rw [h.removed, (h.created id).mp hcreates]
  simp

/-- A container that was created is removed or reported ready, if the outcome of its start is. -/
theorem removes_or_reported_iff {os : List Outcome} (h : Accounts r)
    (hos : ∀ o, r.1 = .ok o → o ∈ os) (hcreates : r.2.trace.Creates id) :
    (r.2.trace.Removes id ∨
        ∃ o ∈ os, r.1 = .ok o ∧ o.phase = .ready ∧ o.containerId = some id) ↔
      id ≠ "" ∨ IsReady r := by
  have hid := (h.created id).mp hcreates
  rw [h.removes_iff hcreates]
  constructor
  · rintro (⟨hne, -⟩ | ⟨o, -, ho, hready, -⟩)
    · exact .inl hne
    · exact .inr ⟨o, ho, hready⟩
  · -- What is not ready is removed, and what is ready is reported.
    intro hor
    by_cases hready : IsReady r
    · obtain ⟨o, ho, hphase⟩ := hready
      obtain ⟨c, -, hc, hocid⟩ := h.ready o ho hphase
      rw [hid] at hc
      exact .inr ⟨o, hos o ho, ho, hphase, hocid.trans hc.symm⟩
    · exact .inl ⟨hor.resolve_right hready, hready⟩

/-- A start leaves no container behind exactly if it did not make one ready, or one with an empty
id. -/
theorem removes_all_iff (h : Accounts r) :
    (∀ id, r.2.trace.Creates id → r.2.trace.Removes id) ↔ r.2.id ≠ some "" ∧ ¬ IsReady r := by
  constructor
  · refine fun hall => ⟨fun hid => ?_, fun hready => ?_⟩
    · exact ((h.removed "").mp (hall "" ((h.created "").mpr hid))).2.1 rfl
    · -- What was made ready has an id, and its own start does not remove it.
      obtain ⟨o, ho, hphase⟩ := hready
      obtain ⟨c, -, hid, -⟩ := h.ready o ho hphase
      exact ((h.removed c.id).mp (hall c.id ((h.created c.id).mpr hid))).2.2 ⟨o, ho, hphase⟩
  · rintro ⟨hne, hready⟩ id hcreates
    rw [(h.created id).mp hcreates] at hne
    exact (h.removes_iff hcreates).mpr ⟨fun he => hne (by rw [he]), hready⟩

end Accounts

/-- What becomes of the containers of starts side by side. If all starts end with an outcome, each
container was removed or is reported ready. Otherwise those that became ready are left behind. -/
theorem startEach_removes (settings : Settings) (hset : settings.removeOnFailure = true)
    (world : World) (now : Int) (specs : List Spec) (timeout : Option Binary64) :
    let runs := startEach settings world now specs timeout
    (∀ r ∈ runs, ∀ id, r.2.trace.Creates id →
      (r.2.trace.Removes id ↔ id ≠ "" ∧ ¬ IsReady r)) ∧
    (∀ os, outcomes runs = .ok os → ∀ r ∈ runs, ∀ id, r.2.trace.Creates id →
      ((r.2.trace.Removes id ∨
          ∃ o ∈ os, r.1 = .ok o ∧ o.phase = .ready ∧ o.containerId = some id) ↔
        id ≠ "" ∨ IsReady r)) ∧
    (∀ e, outcomes runs = .error e →
      ((∀ r ∈ runs, ∀ id, r.2.trace.Creates id → r.2.trace.Removes id) ↔
        ∀ r ∈ runs, r.2.id ≠ some "" ∧ ¬ IsReady r)) := by
  intro runs
  have haccounts : ∀ r ∈ runs, Accounts r := startEach_accounts hset
  -- Removed, removed or reported, and nothing left when one of them raises.
  refine ⟨fun r hr id hcreates => ?_, fun os hos r hr id hcreates => ?_, fun e _ => ?_⟩
  · exact (haccounts r hr).removes_iff hcreates
  · exact (haccounts r hr).removes_or_reported_iff (fun o => mem_of_outcomes_eq_ok hos hr) hcreates
  · exact forall₂_congr fun r hr => (haccounts r hr).removes_all_iff

/-- A spec with a factory of steps that raises something else than a failure. -/
def faulty : Spec :=
  { Spec.ofImage "gitea" "1.22" with
    execAfterStart := [.factory fun _ => .error (.other "RuntimeError" "bug")] }

/-- A factory that raises leaves the container beside it without a report. -/
theorem startEach_removes_beside_faulty :
    Settings.usual.removeOnFailure = true ∧
      ∃ e,
        outcomes (startEach .usual .quiet 0 [Spec.ofImage "redis" "7.2", faulty] none) = .error e ∧
        ¬ ∀ r ∈ startEach .usual .quiet 0 [Spec.ofImage "redis" "7.2", faulty] none,
          ∀ id, r.2.trace.Creates id → r.2.trace.Removes id := by
  refine ⟨rfl, ?_⟩
  have hfault : (outcomes (startEach .usual .quiet 0 [Spec.ofImage "redis" "7.2", faulty]
      none)).toOption.isNone = true := by decide +kernel
  have hready : ∃ r ∈ startEach .usual .quiet 0 [Spec.ofImage "redis" "7.2", faulty] none,
      IsReady r := by decide +kernel
  obtain ⟨-, -, hleft⟩ := startEach_removes .usual rfl .quiet 0
    [Spec.ofImage "redis" "7.2", faulty] none
  cases houtcomes :
    outcomes (startEach .usual .quiet 0 [Spec.ofImage "redis" "7.2", faulty] none) with
  -- The second run raises, so there are no outcomes.
  | ok os =>
    rw [houtcomes] at hfault
    cases hfault
  | error e =>
    obtain ⟨r, hr, hisReady⟩ := hready
    exact ⟨e, rfl, fun hall => ((hleft e houtcomes).mp hall r hr).2 hisReady⟩

end Slipway.Lifecycle
