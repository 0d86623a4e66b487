import Slipway.Proofs.Readiness.Precedence

/-!
# `Slipway.Proofs.Readiness.Patience`: waits against longer deadlines

A wait that has come to a good end comes to the same end if it is given more time. What remains of a
deadline enters every wait: a request does not wait longer than that for its answer, a sleep does
not last longer, the log is not read longer, and a delay is compared with it. But wherever it makes
a difference, the deadline is over then, and the wait ends with a fault that names its condition. So
two waits that are given different times go the same way until one of them fails. Only the time for
which a request says that it waits differs (`Trace.untimed`).

`Ending.IsBlameless` is what a group needs of its members to end well, and `Ending.Matches` is what
comes out. `wait_patient` states it for trees of conditions of all kinds but one. A healthcheck asks
once more when its time is up, so with more time it can meet another status. -/

set_option autoImplicit false

namespace Slipway

open Slipway.World (Note Trace)

/-- A note without the time that a request waits for its answer. -/
def World.Note.untimed : Note → Note
  | .request r => .request { r with timeout := 0 }
  | n => n

/-- A trace without the times that requests wait for their answers. -/
def World.Trace.untimed (t : Trace) : Trace := t.map fun e => { e with note := e.note.untimed }

/-- Request times are left out note by note. -/
theorem World.Trace.untimed_append (t t' : Trace) : (t ++ t').untimed = t.untimed ++ t'.untimed :=
  List.map_append

namespace Readiness

open Slipway.Readiness.Group (isDecisive unmetOf)

/-- An ending that comes to the same as another, but for the times that requests wait. -/
structure Ending.Matches (e e' : Ending) : Prop where
  trace : e'.trace.untimed = e.trace.untimed
  stop : e'.stop = e.stop
  fault : e'.fault = e.fault

/-- Whether an ending neither decides its group nor names a condition. A good end is of this kind,
and else only the failure to be ready that the world has raised itself without a name. -/
def Ending.IsBlameless (e : Ending) : Prop := isDecisive e = false ∧ unmetOf e = []

section
variable {scene : Scene} {d d' : Deadline} {now : Int} {e e' : Ending} {n : Note}

namespace Ending

/-- What ended well is blameless. -/
theorem isBlameless_of_well (h : e.fault = none) : e.IsBlameless := by
  unfold IsBlameless isDecisive unmetOf
  rw [h]
  exact ⟨rfl, rfl⟩

/-- Blame depends on the fault only. -/
theorem isBlameless_congr (h : e'.fault = e.fault) : e'.IsBlameless ↔ e.IsBlameless := by
  unfold IsBlameless isDecisive unmetOf
  rw [h]

/-- A wait that was in vain names its condition. -/
theorem not_isBlameless_unmet {description : String} {reason : Option String}
    (h : e.fault = some (unmet description d reason)) : ¬ e.IsBlameless := by
  rintro ⟨-, hunmet⟩
  rw [unmetOf, h] at hunmet
  cases hunmet

/-- A wait that would go on without end decides its group. -/
theorem not_isBlameless_defect {f : Defect} (h : e.fault = some (.defect f)) : ¬ e.IsBlameless := by
  rintro ⟨hdecisive, -⟩
  rw [isDecisive, h] at hdecisive
  cases hdecisive

namespace Matches

/-- An end matches itself. -/
theorem refl (e : Ending) : e.Matches e := ⟨rfl, rfl, rfl⟩

/-- Ends match with the same note in front, but for request times. -/
theorem after (h : e.Matches e') {n' : Note} (hn : n'.untimed = n.untimed) :
    (Ending.after now n e).Matches (Ending.after now n' e') where
  trace := by
    show (⟨now, n'.untimed⟩ : World.Entry) :: e'.trace.untimed = ⟨now, n.untimed⟩ :: e.trace.untimed
    rw [h.trace, hn]
  stop := h.stop
  fault := h.fault

/-- What matches a blameless end is blameless. -/
theorem isBlameless (h : e.Matches e') (he : e.IsBlameless) : e'.IsBlameless :=
  (isBlameless_congr h.fault).mpr he

end Matches
end Ending

/-! ### Leaves -/

/-- A delay that is kept is kept with more time. -/
theorem Delay.wait_extends {millis : Nat} (h : d.Extends d')
    (he : (wait millis d now).IsBlameless) :
    (wait millis d now).Matches (wait millis d' now) := by
  have hleft := h.remaining_le now
  have hc : ∀ t,
      d.isCancelled t = false := fun t => by rw [Deadline.isCancelled, h.uncancelled]; rfl
  have hc' : ∀ t,
      d'.isCancelled t = false := fun t => by rw [Deadline.isCancelled, h.uncancelled']; rfl
  unfold wait at he ⊢
  simp only [hc, hc', Bool.false_eq_true, if_false] at he ⊢
  cases hlength : lengthOf millis with
  | error e => exact .refl _
  | ok length =>
    rw [hlength] at he
    by_cases hlong : d.remaining now < length
    · -- A delay that does not fit fails, so there is nothing to compare.
      simp only [if_pos hlong] at he
      exact absurd he (Ending.not_isBlameless_unmet rfl)
    · simp only [if_neg hlong, if_neg (show ¬ d'.remaining now < length by omega),
        h.sleep_eq (Int.not_lt.mp hlong)]
      exact .refl _

/-- A stream that tells something other than that the message was not reached tells the same,
whatever the deadline. -/
theorem Log.verdict_of_verdict {m : LogMessage} {t : Int} {fault : Option Fault}
    (h : verdict scene m d now = some (t, fault))
    (hopen : ∀ reason, fault ≠ some (unmet m.describe d reason)) (d' : Deadline) :
    verdict scene m d' now = some (t, fault) := by
  unfold verdict at h ⊢
  simp only at h ⊢
  split at h
  · exact h
  · obtain ⟨ends, hends, hended⟩ := Option.map_eq_some_iff.mp h
    refine Option.map_eq_some_iff.mpr ⟨ends, hends, ?_⟩
    -- Only the failure to be ready tells the total of the deadline, or waits for its end.
    unfold ended at hended ⊢
    split at hended
    · cases hended
      exact absurd rfl (hopen _)
    · split at hended
      · cases hended
        exact absurd rfl (hopen _)
      · rename_i hplain
        simpa only [if_neg hplain] using hended

/-- A text that is found is found with more time. -/
theorem Log.wait_extends {m : LogMessage} (h : d.Extends d')
    (he : (wait scene m d now).IsBlameless) :
    (wait scene m d now).Matches (wait scene m d' now) := by
  have hgivesUp := h.givesUp_le now
  unfold wait at he ⊢
  simp only at he ⊢
  cases hlogs : scene.box.logsFault with
  | some e => exact .refl _
  | none =>
    rw [hlogs] at he
    cases hverdict : verdict scene m d now with
    | none =>
      rw [hverdict] at he
      exact absurd he (Ending.not_isBlameless_unmet rfl)
    | some told =>
      obtain ⟨t, fault⟩ := told
      simp only [hverdict] at he
      -- A verdict in time is in time for the longer deadline, and a later one is a timeout.
      by_cases hin : t < d.givesUp now
      · simp only [if_pos hin] at he
        have hopen : ∀ reason, fault ≠ some (unmet m.describe d reason) := by
          rintro reason rfl
          exact Ending.not_isBlameless_unmet rfl he
        simp only [Log.verdict_of_verdict hverdict hopen d', if_pos hin,
          if_pos (show t < d'.givesUp now by omega)]
        exact .refl _
      · simp only [if_neg hin] at he
        exact absurd he (Ending.not_isBlameless_unmet rfl)

namespace Http

variable {p : HttpProbe} {url : String}

/-- Only a request that may wait for all that remains is given more. -/
theorem timeout_extends (s : Settings) (h : d.Extends d') (now : Int) :
    timeout s d' now = timeout s d now ∨
      d.remaining now ≤ timeout s d now ∧ timeout s d now ≤ timeout s d' now := by
  have hleft := h.remaining_le now
  unfold timeout
  omega

/-- A request that is given more time gets the same answer at the same time, unless it had none when
its time was over. -/
theorem meet_extends (reply : World.Reply) {limit limit' : Int} (h : limit ≤ limit') :
    meet p reply limit' now = meet p reply limit now ∨
      meet p reply limit now = (Clock.after now limit, .ok false) := by
  unfold meet
  cases reply with
  | fault f => exact .inl (by cases f <;> rfl)
  | answer status body delay =>
    simp only
    by_cases hlate : limit < delay
    · exact .inr (if_pos hlate)
    · rw [if_neg hlate, if_neg (show ¬ limit' < delay by omega)]
      exact .inl rfl

/-- A request that is made against a longer deadline is met in the same way, unless the deadline is
over by then. -/
theorem meet_of_extends (s : Settings) (reply : World.Reply) (h : d.Extends d')
    (hexp : ¬ d.isExpired now = true) :
    meet p reply (timeout s d' now) now = meet p reply (timeout s d now) now ∨
      d.isExpired (meet p reply (timeout s d now) now).1 = true ∧
        (meet p reply (timeout s d now) now).2 = .ok false := by
  obtain ⟨hpos, hleft⟩ := Deadline.remaining_eq hexp
  rcases timeout_extends s h now with hsame | ⟨hall, hmore⟩
  · exact .inl (by rw [hsame])
  · refine (meet_extends reply hmore).imp_right fun hmet => ?_
    rw [hmet, Deadline.isExpired_iff_of_uncancelled h.uncancelled, Clock.after, if_pos (by omega)]
    have ho := Clock.overshoot_pos
    exact ⟨by simp only; omega, rfl⟩

/-- Whoever looks again when the deadline is over has waited in vain. -/
theorem not_isBlameless_of_isExpired {start : Int} (h : d.isExpired now = true) :
    ¬ (if _h : start < now then poll scene p url d now
      else .failed start (.defect .stalled)).IsBlameless := by
  split
  · rw [poll_of_isExpired h]
    exact Ending.not_isBlameless_unmet rfl
  · exact Ending.not_isBlameless_defect rfl

/-- The induction is on the requests. Where the times differ that they or the sleeps after them are
given, the deadline is over at the next look. -/
theorem poll_extends (h : d.Extends d') (he : (poll scene p url d now).IsBlameless) :
    (poll scene p url d now).Matches (poll scene p url d' now) := by
  fun_induction poll scene p url d now with
  | case1 now hexp => exact absurd he (Ending.not_isBlameless_unmet rfl)
  | case2 now hexp limit met ih =>
    rw [poll, dif_neg (h.not_isExpired hexp)]
    refine Ending.Matches.after ?_ rfl
    replace he := (Ending.isBlameless_congr rfl).mp he
    have hmet : meet p (scene.world.replyAt url now) limit now = met := rfl
    rcases meet_of_extends scene.settings (scene.world.replyAt url now) h hexp with
      hsame | ⟨hover, hfalse⟩
    · -- The requests are met alike, so what is left to compare are the sleeps.
      rw [hmet] at hsame
      simp only [hsame]
      cases hverdict : met.2 with
      | error e => exact .refl _
      | ok answered =>
        simp only [hverdict] at he
        cases answered with
        | true => exact .refl _
        | false =>
          have hin : interval p scene.settings ≤ d.remaining met.1 := by
            by_contra hlong
            have hexpired := Deadline.isExpired_sleep h.uncancelled (Int.not_le.mp hlong)
            exact not_isBlameless_of_isExpired hexpired he
          simp only [h.sleep_eq hin]
          simp only at he
          split at he
          · rename_i hnext
            simp only [dif_pos hnext]
            exact ih hnext he
          · exact absurd he (Ending.not_isBlameless_defect rfl)
    · rw [hmet] at hover hfalse
      simp only [hfalse] at he
      have hlater := d.le_sleep met.1 (interval p scene.settings)
      have hexpired := Deadline.isExpired_mono h.uncancelled hlater hover
      exact absurd he (not_isBlameless_of_isExpired hexpired)

/-- An endpoint that answers answers with more time. -/
theorem wait_extends (h : d.Extends d') (he : (wait scene p d now).IsBlameless) :
    (wait scene p d now).Matches (wait scene p d' now) := by
  unfold wait at he ⊢
  split at he
  · exact .refl _
  · exact poll_extends h he

end Http

/-! ### Trees -/

namespace Group

/-- What is joined fails by precedence. -/
theorem join_precedes (d : Deadline) (now : Int) (ends : List Ending) :
    Precedence d.total ends (inOrder ends) (join d now ends).fault := by
  have hsettle : (join d now ends).fault = verdict d.total (inOrder ends) :=
    settle_eq_verdict d ends
  rw [hsettle]
  exact verdict_precedes d.total (List.mergeSort_perm ends _)

/-- The members of a group without blame are so. -/
theorem isBlameless_of_join {ends : List Ending} (h : (join d now ends).IsBlameless) :
    ∀ e ∈ ends, e.IsBlameless := by
  obtain ⟨hdecisive, hunmet⟩ := h
  have hall : ∀ e ∈ ends, isDecisive e = false := fun e he => by
    simpa using List.any_eq_false.mp ((isDecisive_join d now ends).symm.trans hdecisive) e he
  refine fun e he => ⟨hall e he, ?_⟩
  by_contra hne
  -- Otherwise the group would name what the member names.
  obtain ⟨unmet, reasons, hfault, hperm, -⟩ := (join_precedes d now ends).unready hall ⟨e, he, hne⟩
  have hnil : unmet = [] := by
    rw [unmetOf, hfault] at hunmet
    exact hunmet
  exact hne (List.flatMap_eq_nil_iff.mp (hnil ▸ hperm).nil_eq.symm e he)

/-- Groups match whose members match and are blameless. -/
theorem join_matches {α : Type} {xs : List α} {ending ending' : α → Ending}
    (h : ∀ x ∈ xs, (ending x).IsBlameless) (hmatch : ∀ x ∈ xs, (ending x).Matches (ending' x)) :
    (join d now (xs.map ending)).Matches (join d' now (xs.map ending')) where
  trace := by
    have htraces : xs.map (fun x => (ending' x).trace.untimed) =
        xs.map fun x => (ending x).trace.untimed :=
      List.map_congr_left fun x hx => (hmatch x hx).trace
    -- The traces of the members stand one after the other.
    have huntimed : ∀ f : α → Ending,
        Trace.untimed ((xs.map f).flatMap Ending.trace) =
          (xs.map fun x => (f x).trace.untimed).flatten := by
      intro f
      rw [List.flatMap_map, Trace.untimed, List.map_flatMap, List.flatMap_def]
      rfl
    exact (huntimed ending').trans ((congrArg List.flatten htraces).trans (huntimed ending).symm)
  stop := by
    refine lastStop_congr fun t _ => ?_
    rw [List.forall_mem_map, List.forall_mem_map]
    exact forall₂_congr fun x hx => by rw [(hmatch x hx).stop]
  fault := by
    have hwell : ∀ (d : Deadline) (f : α → Ending), (∀ x ∈ xs, (f x).IsBlameless) →
        (join d now (xs.map f)).fault = none := fun d f hf =>
      (join_precedes d now _).well (List.forall_mem_map.mpr hf)
    rw [hwell d ending h, hwell d' ending' fun x hx => (hmatch x hx).isBlameless (h x hx)]

end Group

/-- A wait that comes to the same end against any longer deadline, if it comes to one without blame.
-/
def Patient (now : Int) (m : Deadline → Int → Ending) : Prop :=
  ∀ d d' : Deadline, d.Extends d' → (m d now).IsBlameless → (m d now).Matches (m d' now)

/-- A group is not cancelled as long as none of its members decides it, so each is given more time.
-/
theorem Group.wait_patient {members : List (Deadline → Int → Ending)}
    (hunforeseeing : ∀ m ∈ members, Unforeseeing m) (h : ∀ m ∈ members, Patient now m) :
    Patient now (wait members) := by
  intro d d' hd he
  have hjoin : ∀ d : Deadline, (∀ m ∈ members, isDecisive (m (d.child now) now) = false) →
      wait members d now = join d now (members.map fun m => m (d.child now) now) := by
    intro d hdecisive
    unfold wait
    simp only [cancelMoment_eq_none (List.forall_mem_map.mpr hdecisive)]
  have hdecisive : ∀ m ∈ members, isDecisive (m (d.child now) now) = false := fun m hm => by
    simpa using List.any_eq_false.mp ((isDecisive_wait_alone hunforeseeing d now).symm.trans he.1) m
      hm
  -- So the members wait against the child itself, and that of the longer deadline is longer.
  rw [hjoin d hdecisive] at he
  have hall : ∀ m ∈ members, (m (d.child now) now).IsBlameless :=
    List.forall_mem_map.mp (isBlameless_of_join he)
  have hmatch : ∀ m ∈ members, (m (d.child now) now).Matches (m (d'.child now) now) :=
    fun m hm => h m hm _ _ (hd.child now) (hall m hm)
  rw [hjoin d hdecisive, hjoin d' fun m hm => ((hmatch m hm).isBlameless (hall m hm)).1]
  exact join_matches hall hmatch

/-- What is described first is as patient. -/
theorem described_patient (c : Condition) {w : Deadline → Int → Ending} (h : Patient now w) :
    Patient now (described c w) := by
  intro d d' hd he
  unfold described at he ⊢
  split
  · rename_i hwords
    rw [if_pos hwords] at he
    exact h d d' hd he
  · exact .refl _

/-- Conditions that are waited for together are patient if each of them is. -/
theorem waitForAll_patient {members : List (Deadline → Int → Ending)}
    (hunforeseeing : ∀ m ∈ members, Group.Unforeseeing m) (h : ∀ m ∈ members, Patient now m) :
    Patient now (waitForAll members) := by
  intro d d' hd he
  match members with
  | [] => exact .refl _
  | [m] => exact h m (List.mem_singleton.mpr rfl) d d' hd he
  | _ :: _ :: _ => exact Group.wait_patient hunforeseeing h d d' hd he

mutual

/-- A tree of conditions that holds no healthcheck is waited for with patience. -/
theorem wait_patient {c : Condition} (hc : .healthcheck ∉ c.leaves) :
    Patient now (wait scene c) := by
  cases c with
  | log m => exact fun d d' hd he => Log.wait_extends hd he
  | http p => exact described_patient _ fun d d' hd he => Http.wait_extends hd he
  | delay millis => exact described_patient _ fun d d' hd he => Delay.wait_extends hd he
  | healthcheck => exact absurd (List.mem_singleton.mpr rfl) hc
  | all members =>
    cases hwords : Condition.areDescribable members with
    -- A group that cannot be described does not look at the deadline.
    | false =>
      intro d d' hd he
      have hnot : (Condition.all members).isDescribable = false := hwords
      rw [wait_of_not_isDescribable hnot, wait_of_not_isDescribable hnot]
      exact .refl _
    | true =>
      rw [Condition.leaves_all hwords] at hc
      exact described_patient _
        (waitForAll_patient (waits_unforeseeing scene members) (waits_patient hc))
  | foreign label => exact fun d d' hd he => .refl _

/-- So are all of several conditions. -/
theorem waits_patient {cs : List Condition} (hcs : .healthcheck ∉ Condition.leavesAll cs) :
    ∀ m ∈ waits scene cs, Patient now m := by
  cases cs with
  | nil => intro m hm; simp [waits] at hm
  | cons c rest =>
    rw [Condition.leavesAll, List.mem_append, not_or] at hcs
    intro m hm
    rcases List.mem_cons.mp hm with rfl | hm
    · exact wait_patient hcs.1
    · exact waits_patient hcs.2 m hm

end

/-- A list of conditions that was waited for well is waited for as well with more time. -/
theorem waitAll_extends {cs : List Condition} (hcs : ∀ c ∈ cs, .healthcheck ∉ c.leaves)
    (h : d.Extends d') (hwell : (waitAll scene cs d now).fault = none) :
    (waitAll scene cs d now).Matches (waitAll scene cs d' now) := by
  have hall : .healthcheck ∉ Condition.leavesAll cs := by
    rw [Condition.leavesAll_eq_flatMap, List.mem_flatMap]
    rintro ⟨c, hc, hmem⟩
    exact hcs c hc hmem
  exact waitForAll_patient (waits_unforeseeing scene cs) (waits_patient hall) d d' h
    (Ending.isBlameless_of_well hwell)

end

end Readiness
end Slipway
