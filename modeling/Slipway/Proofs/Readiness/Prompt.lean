import Slipway.Proofs.Readiness.Polling
import Slipway.Proofs.Readiness.Precedence

/-!
# `Slipway.Proofs.Readiness.Prompt`: a group that is cancelled soon ends

A deadline that is cancelled is noticed by whoever sleeps at the next look, which is less than one
slice later (`Deadline.sleep_le_of_isCancelled`). A request that has been made is waited for, and
that is all that may take longer. `Ending.Yields` says of a leaf that was cancelled that it ended
within this `grace`, made no more requests, and asked the healthcheck once more at most. Each kind
of wait has its lemma, and the two that poll go by induction on their own recursion.

Wherever a leaf is in a tree of groups, its deadline is cancelled when that of the tree is, so all
leaves yield (`leafEnds_yield`). And the tree notes what its leaves note, and ends with the last of
them (`wait_spans`).

The first member that ends with more than the failure to be ready has the group cancelled, unless it
ends with an interrupt: an interrupt is not caught, and from then on the group does not cancel its
members any more. `Group.isCancelled_deadlineOf` says of a member that ends so before any interrupt
that the group is cancelled by then. `waitAll_ends_promptly` puts this together. -/

set_option autoImplicit false

namespace Slipway

/-! ### Cancelled deadlines -/

namespace Deadline

variable {d : Deadline} {now c t : Int}

/-- What is cancelled stays expired. -/
theorem isExpired_of_le (h : d.isCancelled c = true) (hle : c ≤ t) : d.isExpired t = true :=
  isExpired_of_isCancelled (isCancelled_mono hle h)

/-- A deadline that has not expired has not been cancelled yet. -/
theorem lt_of_not_isExpired (h : d.isCancelled c = true) (hexp : ¬ d.isExpired t = true) : t < c :=
  Int.not_le.mp fun hle => hexp (isExpired_of_le h hle)

/-- A deadline is cancelled already, or by the cancellation. -/
theorem isCancelled_cancelAt (d : Deadline) (moment : Option Int) (c : Int) :
    (d.cancelAt moment).isCancelled c = (d.isCancelled c || hasCome moment c) := by
  show hasCome (earlier (earlier d.cancel moment) d.outerCancel) c =
    (hasCome (earlier d.cancel d.outerCancel) c || hasCome moment c)
  rw [hasCome_earlier, hasCome_earlier, hasCome_earlier, Bool.or_assoc, Bool.or_assoc,
    Bool.or_comm (hasCome moment c)]

/-- A sleep is cut short at the next look after a cancellation. -/
theorem wake_lt_of_isCancelled (h : d.isCancelled c = true) (now : Int) :
    ∃ w, d.wake now = some w ∧ w < max now c + slice := by
  obtain ⟨total, expiry, cancel, outer⟩ := d
  have hs := slice_pos
  have hseen := seen_lt now
  simp only [isCancelled, cancelledFrom, hasCome_earlier, Bool.or_eq_true] at h
  -- Its own cancellation wakes at once, and that of a parent at the next slice.
  cases cancel <;> cases outer <;>
    simp only [hasCome, decide_eq_true_eq, Bool.false_eq_true, or_false, false_or] at h <;>
    simp only [wake, earlier, Option.map, Option.some.injEq, exists_eq_left']
  case none.some o =>
    have := hseen o
    omega
  case some.none a => omega
  case some.some a o =>
    have := hseen o
    omega

/-- A sleep under a cancelled deadline ends with the slice. -/
theorem sleep_le_of_isCancelled (h : d.isCancelled c = true) (now length : Int) :
    d.sleep now length ≤ max now (c + slice) := by
  by_cases hle : c ≤ now
  · -- Nothing remains of a deadline that is cancelled already.
    have hleft : d.remaining now = 0 := by rw [remaining, if_pos (isCancelled_mono hle h)]
    have hnap := d.sleep_le_napEnd now length
    rw [napEnd, hleft, slicesEnd, if_pos (Int.min_le_right _ _)] at hnap
    omega
  · obtain ⟨w, hw, hlt⟩ := wake_lt_of_isCancelled h now
    rw [sleep_eq, hw]
    simp only
    omega

/-- So does a wait for the log. -/
theorem givesUp_le_of_isCancelled (h : d.isCancelled c = true) (hnow : now ≤ c) :
    d.givesUp now ≤ c + slice := by
  have ho := Clock.overshoot_pos
  have hi := interval_pos
  have hslice : slice = interval + Clock.overshoot := rfl
  unfold givesUp
  simp only
  split
  · omega
  · -- It is cancelled, so there is a moment at which it is.
    cases hm : d.cancelledFrom with
    | none =>
      rw [isCancelled, hm] at h
      cases h
    | some m =>
      rw [isCancelled, hm, hasCome, decide_eq_true_eq] at h
      have hseen := seen_lt now m
      simp only
      omega

end Deadline

namespace Readiness

open Slipway.World (Entry Trace)

/-! ### Endings of cancelled waits -/

/-- How much longer a wait may go on that has been cancelled: until its next look, or until the
request is over that it has made. -/
def grace (s : Settings) : Int :=
  max Deadline.interval (max (Clock.ofSeconds s.httpRequestTimeout) Http.leastTimeout)

/-- Whether something was asked of a healthcheck. -/
def asksHealth (x : Entry) : Bool :=
  match x.note with
  | .probe _ (.health _) => true
  | _ => false

/-- How often a healthcheck was asked from a moment on. -/
def checksFrom (c : Int) (t : Trace) : Nat := t.countP fun x => asksHealth x && decide (c ≤ x.time)

/-- A wait that was cancelled at a moment and soon ended. -/
structure Ending.Yields (s : Settings) (c : Int) (e : Ending) : Prop where
  stop_le : e.stop ≤ c + grace s + Clock.overshoot
  requests : ∀ x ∈ e.trace, ∀ r, x.note = .request r → x.time < c
  checks : checksFrom c e.trace ≤ 1

/-- A slice is within the grace. -/
theorem slice_le_grace (s : Settings) : Deadline.slice ≤ grace s + Clock.overshoot := by
  have hslice : Deadline.slice = Deadline.interval + Clock.overshoot := rfl
  unfold grace
  omega

/-- The grace is no negative time. -/
theorem grace_nonneg (s : Settings) : 0 ≤ grace s := by
  have hi := Deadline.interval_pos
  unfold grace
  omega

/-- A check before the moment does not count. -/
theorem checksFrom_cons_of_lt {c now : Int} (h : now < c) (n : World.Note) (t : Trace) :
    checksFrom c (⟨now, n⟩ :: t) = checksFrom c t := by
  unfold checksFrom
  rw [List.countP_cons_of_neg]
  simp only [Bool.and_eq_true, decide_eq_true_eq, not_and]
  omega

namespace Ending

variable {s : Settings} {c now : Int} {e : Ending}

/-- An end without a trace yields if it comes in time. -/
theorem yields_of_trace_nil (hstop : e.stop ≤ c + grace s + Clock.overshoot)
    (htrace : e.trace = []) :
    e.Yields s c := by
  refine ⟨hstop, fun x hx => ?_, ?_⟩
  · rw [htrace] at hx
    cases hx
  · rw [htrace]
    exact Nat.zero_le 1

/-- A wait that failed at once, or by the next look after the cancellation. -/
theorem yields_of_stop_le (hnow : now ≤ c) (hstop : e.stop ≤ max now (c + Deadline.slice))
    (htrace : e.trace = []) : e.Yields s c := by
  have hgrace := slice_le_grace s
  have hs := Deadline.slice_pos
  exact yields_of_trace_nil (by omega) htrace

/-- One more note at the start, which is neither a request nor asked of a healthcheck. -/
theorem Yields.after (h : e.Yields s c) {n : World.Note} (hrequest : ∀ r, n ≠ .request r)
    (hhealth : asksHealth ⟨now, n⟩ = false) : (Ending.after now n e).Yields s c := by
  refine ⟨h.stop_le, fun x hx r hr => ?_, ?_⟩
  · rcases List.mem_cons.mp hx with rfl | hx
    · exact absurd hr (hrequest r)
    · exact h.requests x hx r hr
  · have hcount : checksFrom c (Ending.after now n e).trace = checksFrom c e.trace :=
      List.countP_cons_of_neg (by simp [hhealth])
    rw [hcount]
    exact h.checks

/-- One more note at the start, before the cancellation. -/
theorem Yields.after_of_lt (h : e.Yields s c) (hnow : now < c) (n : World.Note) :
    (Ending.after now n e).Yields s c := by
  refine ⟨h.stop_le, fun x hx r hr => ?_, ?_⟩
  · rcases List.mem_cons.mp hx with rfl | hx
    · exact hnow
    · exact h.requests x hx r hr
  · have hcount : checksFrom c (Ending.after now n e).trace = checksFrom c e.trace :=
      checksFrom_cons_of_lt hnow n e.trace
    rw [hcount]
    exact h.checks

/-- A wait for the healthcheck that one question decides. -/
theorem yields_of_last_check (hstop : e.stop ≤ c + grace s + Clock.overshoot)
    (htrace : e.trace = [])
    (id : String) (status : Option String) :
    (Ending.after now (.probe id (.health status)) e).Yields s c := by
  refine ⟨hstop, fun x hx r hr => ?_, ?_⟩
  · -- The only note is the check, which is no request.
    have hx' : x ∈ ⟨now, .probe id (.health status)⟩ :: e.trace := hx
    rw [htrace, List.mem_singleton] at hx'
    subst hx'
    cases hr
  · have htrace' : (Ending.after now (.probe id (.health status)) e).trace =
        [⟨now, .probe id (.health status)⟩] := by
      show _ :: e.trace = _
      rw [htrace]
    rw [htrace']
    exact List.countP_le_length

end Ending

/-! ### The kinds -/

section
variable {scene : Scene} {d : Deadline} {now c : Int}

/-- A delay yields to a cancellation. -/
theorem Delay.wait_yields (s : Settings) (millis : Nat) (hc : d.isCancelled c = true)
    (hnow : now ≤ c) :
    (Delay.wait millis d now).Yields s c := by
  unfold Delay.wait
  simp only
  refine Ending.Yields.after ?_ nofun rfl
  -- Overlong, cut, ended too late, or slept in full.
  split
  · exact Ending.yields_of_stop_le hnow (Int.le_max_left _ _) rfl
  · have hs := Deadline.sleep_le_of_isCancelled hc now ‹Int›
    split
    · exact Ending.yields_of_stop_le hnow hs rfl
    · split
      · exact Ending.yields_of_stop_le hnow hs rfl
      · exact Ending.yields_of_stop_le hnow hs rfl

/-- A wait for the log yields to a cancellation. -/
theorem Log.wait_yields (m : LogMessage) (hc : d.isCancelled c = true) (hnow : now ≤ c) :
    (Log.wait scene m d now).Yields scene.settings c := by
  have hg := Deadline.givesUp_le_of_isCancelled hc hnow
  have hexpired : d.givesUp now ≤ max now (c + Deadline.slice) :=
    Int.le_trans hg (Int.le_max_right _ _)
  unfold Log.wait
  simp only
  refine Ending.Yields.after ?_ nofun rfl
  split
  · exact Ending.yields_of_stop_le hnow (Int.le_max_left _ _) rfl
  · split
    · split
      · -- The verdict came before the wait gave up.
        rename_i t f _ ht
        have hstop : t ≤ max now (c + Deadline.slice) := by omega
        exact Ending.yields_of_stop_le hnow hstop rfl
      · exact Ending.yields_of_stop_le hnow hexpired rfl
    · exact Ending.yields_of_stop_le hnow hexpired rfl

/-- A wait for the healthcheck asks no more once the deadline has expired. -/
theorem Health.wait_of_isExpired (scene : Scene) (hexp : d.isExpired now = true) :
    ∃ status f, Health.wait scene d now =
      Ending.after now (.probe scene.container.id (.health status)) ⟨[], now, f⟩ := by
  rw [Health.wait]
  split
  · exact ⟨none, _, rfl⟩
  · exact ⟨none, _, rfl⟩
  · rename_i status _
    refine ⟨some status, ?_⟩
    split <;> exact ⟨_, rfl⟩

/-- A wait for the healthcheck yields to a cancellation. -/
theorem Health.wait_yields (hc : d.isCancelled c = true) (hnow : now ≤ c) :
    (Health.wait scene d now).Yields scene.settings c := by
  have hgrace := grace_nonneg scene.settings
  have ho := Clock.overshoot_pos
  fun_induction Health.wait scene d now with
  | case1 now asked e =>
    exact Ending.yields_of_last_check (by simp only [Ending.failed]; omega) rfl _ _
  | case2 now asked =>
    exact Ending.yields_of_last_check (by simp only [Ending.failed]; omega) rfl _ _
  | case3 now asked status hstatus ih =>
    have hlast : ∀ f, (asked (some status) ⟨[], now, f⟩).Yields scene.settings c := fun f =>
      Ending.yields_of_last_check (by simp only; omega) rfl _ _
    split
    · exact hlast _
    · split
      · exact hlast _
      · rename_i hexp
        have hlt := Deadline.lt_of_not_isExpired hc hexp
        simp only
        split
        · rename_i hnext
          refine Ending.Yields.after_of_lt ?_ hlt _
          by_cases hle : d.sleep now (Clock.ofSeconds scene.settings.healthPollInterval) ≤ c
          · exact ih hexp hnext hle
          · -- The cancellation is seen at the next question, which is the last.
            have hsleep := Deadline.sleep_le_of_isCancelled hc now
              (Clock.ofSeconds scene.settings.healthPollInterval)
            have hslice := slice_le_grace scene.settings
            have hexp' := Deadline.isExpired_of_le hc (Int.le_of_not_le hle)
            obtain ⟨status, f, hwait⟩ := Health.wait_of_isExpired scene hexp'
            rw [hwait]
            exact Ending.yields_of_last_check (by simp only; omega) rfl _ _
        · exact hlast _

/-- A poll yields to a cancellation. -/
theorem Http.poll_yields {p : HttpProbe} {url : String} (hc : d.isCancelled c = true)
    (hnow : now ≤ c) :
    (Http.poll scene p url d now).Yields scene.settings c := by
  have hgrace := grace_nonneg scene.settings
  have hslice := slice_le_grace scene.settings
  have ho := Clock.overshoot_pos
  fun_induction Http.poll scene p url d now with
  | case1 now hexp => exact Ending.yields_of_trace_nil (by simp only [Ending.failed]; omega) rfl
  | case2 now hexp limit met ih =>
    have hlt := Deadline.lt_of_not_isExpired hc hexp
    have hmet : met.1 ≤ now + limit + Clock.overshoot :=
      Http.meet_le p _ now (Http.timeout_le scene.settings hexp).1
    -- A request that was made before the cancellation is over within the grace.
    have hlimit : limit ≤ grace scene.settings :=
      Int.le_trans (Http.timeout_le_max scene.settings d now) (Int.le_max_right _ _)
    refine Ending.Yields.after_of_lt ?_ hlt _
    split
    · exact Ending.yields_of_trace_nil (by simp only [Ending.failed]; omega) rfl
    · exact Ending.yields_of_trace_nil (by simp only [Ending.well]; omega) rfl
    · simp only
      split
      · rename_i hnext
        by_cases hle : d.sleep met.1 (Http.interval p scene.settings) ≤ c
        · exact ih hnext hle
        · have hsleep := Deadline.sleep_le_of_isCancelled hc met.1
            (Http.interval p scene.settings)
          rw [Http.poll_of_isExpired (Deadline.isExpired_of_le hc (Int.le_of_not_le hle))]
          exact Ending.yields_of_trace_nil (by simp only [Ending.failed]; omega) rfl
      · exact Ending.yields_of_trace_nil (by simp only [Ending.failed]; omega) rfl

/-- A wait for an endpoint yields to a cancellation. -/
theorem Http.wait_yields (p : HttpProbe) (hc : d.isCancelled c = true) (hnow : now ≤ c) :
    (Http.wait scene p d now).Yields scene.settings c := by
  unfold Http.wait
  split
  · exact Ending.yields_of_stop_le hnow (Int.le_max_left _ _) rfl
  · exact Http.poll_yields hc hnow

/-- Every leaf yields to a cancellation. -/
theorem wait_yields_of_isLeaf {cond : Condition} (hleaf : cond.IsLeaf) (hc : d.isCancelled c = true)
    (hnow : now ≤ c) : (wait scene cond d now).Yields scene.settings c := by
  -- What is refused at once yields, as it ends at once.
  have hrefused : ∀ f, (Ending.failed now f).Yields scene.settings c :=
    fun _ => Ending.yields_of_stop_le hnow (Int.le_max_left _ _) rfl
  cases cond with
  | log m => exact Log.wait_yields m hc hnow
  | http p => exact described_cases (fun _ => Http.wait_yields p hc hnow) fun _ => hrefused _
  | delay millis =>
    exact described_cases (fun _ => Delay.wait_yields scene.settings millis hc hnow)
      fun _ => hrefused _
  | healthcheck => exact Health.wait_yields hc hnow
  | all members =>
    rw [wait_of_not_isDescribable (show (Condition.all members).isDescribable = false from hleaf)]
    exact hrefused _
  | foreign label => exact hrefused _

/-! ### Trees -/

/-- Members see the cancellation of their group. -/
theorem memberDeadline_isCancelled (members : List Condition) (hc : d.isCancelled c = true) :
    (memberDeadline scene members d now).isCancelled c = true := by
  have hchild : (d.child now).isCancelled c = true := by rw [Deadline.isCancelled_child, hc]
  match members with
  | [] => exact hc
  | [_] => exact hc
  | m :: m' :: rest =>
    show (Group.deadlineOf (waits scene (m :: m' :: rest)) d now).isCancelled c = true
    rw [Group.deadlineOf_eq, Deadline.isCancelled_cancelAt, hchild, Bool.true_or]

mutual

/-- All leaves of a condition yield that is waited for against a deadline that is cancelled. -/
theorem leafEnds_yield (cond : Condition) (d : Deadline) (hc : d.isCancelled c = true)
    (hnow : now ≤ c) :
    ∀ e ∈ leafEnds scene cond d now, e.Yields scene.settings c := by
  -- By the condition: the leaves of a group see the cancellation through their deadline.
  cases cond with
  | all members =>
    cases hwords : Condition.areDescribable members with
    | false =>
      simp only [leafEnds_all_of_not_areDescribable hwords, List.mem_singleton, forall_eq]
      exact wait_yields_of_isLeaf hwords hc hnow
    | true =>
      rw [leafEnds_all hwords]
      exact leavesEnds_yield members _ (memberDeadline_isCancelled members hc) hnow
  | _ =>
    simp only [leafEnds, List.mem_singleton, forall_eq]
    exact wait_yields_of_isLeaf trivial hc hnow

/-- The leaves of several conditions yield. -/
theorem leavesEnds_yield (cs : List Condition) (d : Deadline) (hc : d.isCancelled c = true)
    (hnow : now ≤ c) : ∀ e ∈ leavesEnds scene cs d now, e.Yields scene.settings c := by
  cases cs with
  | nil =>
    rw [leavesEnds]
    exact fun e he => absurd he List.not_mem_nil
  | cons cond rest =>
    rw [leavesEnds]
    intro e he
    rcases List.mem_append.mp he with he | he
    · exact leafEnds_yield cond d hc hnow e he
    · exact leavesEnds_yield rest d hc hnow e he

end

/-- A wait that notes what some others note, and ends with the last of them. -/
structure Ending.Spans (now : Int) (e : Ending) (parts : List Ending) : Prop where
  trace : e.trace = parts.flatMap Ending.trace
  stop_le_iff : ∀ t, now ≤ t → (e.stop ≤ t ↔ ∀ x ∈ parts, x.stop ≤ t)

/-- An end spans itself. -/
theorem Ending.spans_self (e : Ending) : e.Spans now [e] :=
  ⟨by simp, fun t _ => by simp⟩

/-- Conditions are waited for together as their leaves are, if each of them is. -/
theorem waitAll_spans_of_members {cs : List Condition}
    (h : (cs.map fun c => wait scene c (memberDeadline scene cs d now) now).flatMap Ending.trace =
        (allEnds scene cs d now).flatMap Ending.trace ∧
      ∀ t, now ≤ t → ((∀ e ∈ cs.map fun c => wait scene c (memberDeadline scene cs d now) now,
        e.stop ≤ t) ↔ ∀ e ∈ allEnds scene cs d now, e.stop ≤ t)) :
    (waitAll scene cs d now).Spans now (allEnds scene cs d now) := by
  -- None, one, or a group, which joins the ends of its members.
  match cs with
  | [] =>
    rw [waitAll_nil, allEnds, leavesEnds]
    exact ⟨rfl, fun t ht => by simpa [Ending.well] using ht⟩
  | [cond] =>
    have hself : memberDeadline scene [cond] d now = d := rfl
    rw [hself] at h
    rw [waitAll_singleton]
    exact ⟨by rw [← h.1]; simp, fun t ht => by rw [← h.2 t ht]; simp⟩
  | m :: m' :: rest =>
    have hends : Group.endings (waits scene (m :: m' :: rest)) d now =
        (m :: m' :: rest).map fun c =>
          wait scene c (memberDeadline scene (m :: m' :: rest) d now) now := by
      rw [Group.endings, waits_eq_map, List.map_map, ← waits_eq_map]
      rfl
    rw [waitAll_cons_cons, Group.wait_eq_join, hends]
    refine ⟨h.1, fun t ht => ?_⟩
    rw [← h.2 t ht]
    exact Group.lastStop_le_iff.trans (and_iff_right ht)

mutual

/-- A condition is waited for as its leaves are. -/
theorem wait_spans (cond : Condition) (d : Deadline) :
    (wait scene cond d now).Spans now (leafEnds scene cond d now) := by
  -- By the condition: a group spans what its members span.
  cases cond with
  | all members =>
    cases hwords : Condition.areDescribable members with
    | false =>
      rw [leafEnds_all_of_not_areDescribable hwords]
      exact Ending.spans_self _
    | true =>
      rw [wait_all hwords, leafEnds_all hwords]
      exact waitAll_spans_of_members (waits_span members (memberDeadline scene members d now))
  | _ =>
    simp only [leafEnds]
    exact Ending.spans_self _

/-- The ends of several conditions span those of their leaves. -/
theorem waits_span (cs : List Condition) (d : Deadline) :
    (cs.map fun c => wait scene c d now).flatMap Ending.trace =
        (leavesEnds scene cs d now).flatMap Ending.trace ∧
      ∀ t, now ≤ t → ((∀ e ∈ cs.map fun c => wait scene c d now, e.stop ≤ t) ↔
        ∀ e ∈ leavesEnds scene cs d now, e.stop ≤ t) := by
  -- By the conditions, one after the other.
  cases cs with
  | nil => simp [leavesEnds]
  | cons cond rest =>
    have hfirst := wait_spans cond d
    obtain ⟨htrace, hstop⟩ := waits_span rest d
    rw [leavesEnds, List.map_cons, List.flatMap_cons, List.flatMap_append]
    refine ⟨by rw [hfirst.trace, htrace], fun t ht => ?_⟩
    rw [List.forall_mem_cons, List.forall_mem_append, hfirst.stop_le_iff t ht, hstop t ht]

end

end

/-! ### The member that stops its group -/

namespace Group

variable {members : List (Deadline → Int → Ending)} {d : Deadline} {now : Int} {e : Ending}

/-- Only interrupts weigh as interrupts. -/
theorem eq_interrupt_of_weigh {f : Option Fault} (h : weigh f = .interrupt) :
    ∃ text, f = some (.interrupt text) := by
  unfold weigh at h
  split at h
  case h_4 text => exact ⟨text, rfl⟩
  all_goals cases h

/-- Without an earliest there is none at all. -/
theorem eq_nil_of_earliest? {ends : List Ending} (h : earliest? ends = none) : ends = [] := by
  cases ends with
  | nil => rfl
  | cons e rest => cases h

/-- A group is cancelled by the time at which a member ends that decides it, if no interrupt came
before. -/
theorem isCancelled_deadlineOf (hmembers : ∀ m ∈ members, Unforeseeing m)
    (he : e ∈ endings members d now) (hdecisive : isDecisive e = true)
    (hfirst : ∀ x ∈ endings members d now, weigh x.fault = .interrupt → e.stop < x.stop) :
    (deadlineOf members d now).isCancelled (e.stop + Clock.overshoot) = true := by
  obtain ⟨m, hm, rfl⟩ := List.mem_map.mp he
  cases hmoment : cancelMoment (members.map fun m => m (d.child now) now) with
  | none =>
    -- Nobody is cancelled, so the first member to decide the group ends with an interrupt.
    have hdeadline : deadlineOf members d now = d.child now := by
      rw [deadlineOf_eq, hmoment]
      rfl
    have hends : endings members d now = members.map fun m => m (d.child now) now := by
      rw [endings, hdeadline]
    rw [hends] at he hfirst
    unfold cancelMoment at hmoment
    cases hearliest : earliest? ((members.map fun m => m (d.child now) now).filter isDecisive) with
    | none =>
      have hmem := List.mem_filter.mpr ⟨he, hdecisive⟩
      rw [eq_nil_of_earliest? hearliest] at hmem
      cases hmem
    | some x =>
      obtain ⟨hx, hle⟩ := earliest?_spec hearliest
      have hinterrupt : weigh x.fault = .interrupt := by
        by_contra hne
        simp [hearliest, hne] at hmoment
      have hlt := hfirst x (List.mem_filter.mp hx).1 hinterrupt
      have hback := hle _ (List.mem_filter.mpr ⟨he, hdecisive⟩)
      omega
  | some t =>
    have hdeadline : deadlineOf members d now = (d.child now).cancelAt (some t) := by
      rw [deadlineOf_eq, hmoment]
    rw [hdeadline] at hdecisive ⊢
    obtain ⟨first, -, -, hearliest, ht, -⟩ := first_of_cancelMoment hmembers hmoment
    suffices hle : t ≤ (m ((d.child now).cancelAt (some t)) now).stop + Clock.overshoot by
      have hcome : Deadline.hasCome (some t)
          ((m ((d.child now).cancelAt (some t)) now).stop + Clock.overshoot) = true :=
        decide_eq_true hle
      rw [Deadline.isCancelled_cancelAt, hcome, Bool.or_true]
    by_contra hlate
    -- A member that ends before the cancellation ends as if there were none, and so not before the
    -- first.
    have hagrees := ((d.child now).agreesUntil_cancelAt t).symm
    have hsame := hmembers m hm t _ _ now hagrees (by have := Clock.overshoot_pos; omega)
    rw [← hsame] at hdecisive hlate
    have hback := (earliest?_spec hearliest).2 _
      (List.mem_filter.mpr ⟨List.mem_map_of_mem (f := fun m => m (d.child now) now) hm, hdecisive⟩)
    omega

end Group

/-! ### All together -/

/-- Whether a fault stops a group: it is more than the failure to be ready, and no interrupt. -/
def stopsGroups (f : Fault) : Bool := !decide f.IsUnready && !f.isInterrupt

/-- What stops groups is decisive. -/
theorem isDecisive_of_stopsGroups {e : Ending} {f : Fault} (hf : e.fault = some f)
    (h : stopsGroups f = true) : Group.isDecisive e = true := by
  unfold Group.isDecisive
  rw [hf]
  cases f with
  | failure g =>
    cases g with
    | notReady unmet timeout reason => cases h
    | _ => rfl
  | interrupt text => cases h
  | _ => rfl

/-- A wait for several conditions that ended soon after a moment, with all that its leaves did. -/
structure EndsPromptly (scene : Scene) (cs : List Condition) (d : Deadline) (now t : Int) :
    Prop where
  /-- It ended within the grace. The cancellation is not seen before the clock has moved on, and the
  last wait overshoots. -/
  stop_le : (waitAll scene cs d now).stop ≤ t + grace scene.settings + 2 * Clock.overshoot
  /-- Each leaf was waited for in its own group, and what was noted was noted of the leaves. -/
  leaves : List.Forall₂ (fun l e => ∃ d', e = wait scene l d' now) (Condition.leavesAll cs)
    (allEnds scene cs d now)
  trace : (waitAll scene cs d now).trace = (allEnds scene cs d now).flatMap Ending.trace
  /-- No leaf made a request after the moment. -/
  requests : ∀ x ∈ (waitAll scene cs d now).trace, ∀ r, x.note = .request r →
    x.time < t + Clock.overshoot
  /-- A leaf asked the healthcheck once more at most. -/
  checks : ∀ e ∈ allEnds scene cs d now, checksFrom (t + Clock.overshoot) e.trace ≤ 1

/-- A group ends promptly if a member ends with more than the failure to be ready, and no member was
interrupted before. -/
theorem waitAll_ends_promptly (scene : Scene) {cs : List Condition} (hgroup : 2 ≤ cs.length)
    (d : Deadline) (now : Int) {e : Ending} (he : e ∈ Group.endings (waits scene cs) d now)
    {f : Fault}
    (hf : e.fault = some f) (hstops : stopsGroups f = true)
    (hfirst : ∀ x ∈ Group.endings (waits scene cs) d now, ∀ text,
      x.fault = some (.interrupt text) → e.stop < x.stop) :
    EndsPromptly scene cs d now e.stop := by
  have hspans : (waitAll scene cs d now).Spans now (allEnds scene cs d now) :=
    waitAll_spans_of_members (waits_span cs (memberDeadline scene cs d now))
  have hdeadline : memberDeadline scene cs d now = Group.deadlineOf (waits scene cs) d now := by
    rcases cs with _ | ⟨c, _ | ⟨c', rest⟩⟩
    · cases hgroup
    · exact absurd hgroup (by simp)
    · rfl
  -- The fault is decisive and no interrupt comes before it, so the group cancels its members.
  have hcancelled : (memberDeadline scene cs d now).isCancelled (e.stop + Clock.overshoot) =
      true := by
    rw [hdeadline]
    refine Group.isCancelled_deadlineOf (waits_unforeseeing scene cs) he
      (isDecisive_of_stopsGroups hf hstops) fun x hx hweigh => ?_
    obtain ⟨text, htext⟩ := Group.eq_interrupt_of_weigh hweigh
    exact hfirst x hx text htext
  have hnow : now ≤ e.stop := by
    obtain ⟨m, hm, rfl⟩ := List.mem_map.mp he
    exact (waits_ask scene cs m hm _ now).le_stop
  have ho := Clock.overshoot_pos
  -- From then on every leaf yields, however deep it lies.
  have hyield : ∀ x ∈ allEnds scene cs d now,
      x.Yields scene.settings (e.stop + Clock.overshoot) :=
    leavesEnds_yield cs _ hcancelled (by omega)
  refine ⟨?_, allEnds_of_leaves cs d, hspans.trace, ?_, fun x hx => (hyield x hx).checks⟩
  · have hgrace := grace_nonneg scene.settings
    refine (hspans.stop_le_iff _ (by omega)).mpr fun x hx => ?_
    have hstop := (hyield x hx).stop_le
    omega
  · intro x hx r hr
    rw [hspans.trace] at hx
    obtain ⟨leaf, hleaf, hx⟩ := List.mem_flatMap.mp hx
    exact (hyield leaf hleaf).requests x hx r hr

/-- A container that is gone after 150 milliseconds. Its log tells nothing, and a request to it is
not answered. -/
def vanishing : Scene :=
  { unresponsive with
    container := ⟨"c1", "localhost", [("9000/tcp", 40000)], none⟩
    box := { World.Box.quiet with health :=
      [⟨0, .ok (some "starting")⟩,
        ⟨150 * Clock.millisecond, .error (.failure (.runtimeUnavailable "gone"))⟩] } }

/-- What is waited for beside the healthcheck, in a group of its own. -/
def companions : Condition := .all [.http (.get "/" (.tcp 9000)), .onStdout "started", .delay 60000]
def vigil : List Condition := [.healthcheck, companions]

/-- A deadline that is far away, and the child of it that is cancelled when the healthcheck has
failed. -/
def distant : Deadline := .start 0 (Settings.secondsOf 100)
def distantChild : Deadline :=
  (distant.child 0).cancelAt (some (200 * Clock.millisecond + 3 * Clock.overshoot))

/-- The deadline that the members of the vigil have. -/
theorem deadlineOf_vigil : Group.deadlineOf (waits vanishing vigil) distant 0 = distantChild := by
  -- The inner group does not decide the outer one, which is told by its leaves.
  have hinner : Group.isDecisive (wait vanishing companions (distant.child 0) 0) = false := by
    rw [isDecisive_wait_of_child_eq distant.child_child]
    decide +kernel
  have hmoment : Group.cancelMoment [wait vanishing .healthcheck (distant.child 0) 0,
      wait vanishing companions (distant.child 0) 0] =
        some (200 * Clock.millisecond + 3 * Clock.overshoot) := by
    unfold Group.cancelMoment
    rw [List.filter_cons, List.filter_cons, hinner]
    decide +kernel
  rw [Group.deadlineOf_eq]
  exact congrArg _ hmoment

/-- The healthcheck fails at the third question, and the inner group ends with the request that is
under way. -/
theorem waitAll_ends_promptly_of_vanishing :
    2 ≤ vigil.length ∧ stopsGroups (.failure (.runtimeUnavailable "gone")) = true ∧
      ∃ e ∈ Group.endings (waits vanishing vigil) distant 0,
        e.fault = some (.failure (.runtimeUnavailable "gone")) ∧
        (∀ x ∈ Group.endings (waits vanishing vigil) distant 0, ∀ text,
          x.fault = some (.interrupt text) → e.stop < x.stop) ∧
        EndsPromptly vanishing vigil distant 0 e.stop := by
  have hgroup : 2 ≤ vigil.length := by decide
  have hstops : stopsGroups (.failure (.runtimeUnavailable "gone")) = true := by decide
  have hends : Group.endings (waits vanishing vigil) distant 0 =
      vigil.map fun c => wait vanishing c distantChild 0 := by
    rw [Group.endings, deadlineOf_vigil, waits_eq_map, List.map_map]
    rfl
  have hf : (wait vanishing .healthcheck distantChild 0).fault =
      some (.failure (.runtimeUnavailable "gone")) := by decide +kernel
  have hmem : wait vanishing .healthcheck distantChild 0 ∈
      Group.endings (waits vanishing vigil) distant 0 := by
    rw [hends]
    exact List.mem_cons_self
  -- No member ends with an interrupt, as no leaf of it does.
  have hnobody : ∀ c ∈ vigil, Group.isForeign (wait vanishing c distantChild 0) = false := by
    intro c hc
    rw [wait_any (fun _ => rfl) Group.isForeign_join]
    revert c
    simp only [vigil, List.forall_mem_cons]
    decide +kernel
  have hfirst : ∀ x ∈ Group.endings (waits vanishing vigil) distant 0, ∀ text,
      x.fault = some (.interrupt text) →
        (wait vanishing .healthcheck distantChild 0).stop < x.stop := by
    intro x hx text htext
    rw [hends] at hx
    obtain ⟨c, hc, rfl⟩ := List.mem_map.mp hx
    have hforeign := Group.isForeign_iff.mpr ⟨_, htext, by simp⟩
    rw [hnobody c hc] at hforeign
    cases hforeign
  exact ⟨hgroup, hstops, _, hmem, hf, hfirst,
    waitAll_ends_promptly vanishing hgroup distant 0 hmem hf hstops hfirst⟩

/-- The same container, whose log cannot be read because of an interrupt. -/
def interrupted : Scene :=
  { vanishing with box := { vanishing.box with logsFault := some (.interrupt "") } }

/-- After an interrupt a group does not cancel its members any more: the delay is waited for to its
end, although the healthcheck has failed long before. -/
theorem not_waitAll_ends_promptly_of_interrupted :
    ¬ ∀ (scene : Scene) (cs : List Condition) (d : Deadline) (now : Int), 2 ≤ cs.length →
      ∀ e ∈ Group.endings (waits scene cs) d now, ∀ f, e.fault = some f → stopsGroups f = true →
        EndsPromptly scene cs d now e.stop := by
  intro h
  -- The interrupt comes first, so the group is not cancelled, and the delay goes on.
  have hlate : ∃ e ∈ Group.endings
      (waits interrupted [.onStdout "ready", .healthcheck, .delay 60000]) distant 0,
      e.fault = some (.failure (.runtimeUnavailable "gone")) ∧
        e.stop + grace interrupted.settings + 2 * Clock.overshoot <
          (waitAll interrupted [.onStdout "ready", .healthcheck, .delay 60000] distant 0).stop := by
    decide +kernel
  obtain ⟨e, he, hf, hlt⟩ := hlate
  have hprompt := h interrupted _ distant 0 (by decide) e he _ hf (by decide)
  exact absurd hprompt.stop_le (Int.not_le.mpr hlt)

end Readiness
end Slipway
