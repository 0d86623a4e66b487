import Slipway.Proofs.Readiness.Asking

/-!
# `Slipway.Proofs.Readiness.Leaves`: a leaf waited for alone and in a group

A leaf is a condition that is no conjunction, or one that cannot be put in words: of that no member
is waited for. Two facts about the wait for a leaf are what a group needs of its members.

* `wait_fault_of_isLeaf`: a leaf that was not reached names itself, and the total of its deadline.
  The reason is never the empty text. The world has to leave that failure to the waits
  (`Scene.LeavesReadinessToWaits`): an engine that raises it could name anything. Behind it stands
  `fault_of_leaf`, which tells all that a leaf can end with.
* `wait_child_of_isLeaf`: against a child of a deadline the leaf ends as against the deadline, with
  the same fault, and less than one slice later. A healthcheck is the exception. It asks once more
  after each sleep, so a sleep that is cut short later can meet another status. If the deadline
  itself is never cancelled the two waits end at the same moment, and then a healthcheck is no
  exception. -/

set_option autoImplicit false

namespace Slipway

/-- Whether a fault is the failure to be ready. -/
def Fault.IsUnready : Fault → Prop
  | .failure (.notReady _ _ _) => True
  | _ => False

instance : DecidablePred Fault.IsUnready
  | .failure (.notReady _ _ _) => .isTrue trivial
  | .failure (.general _) | .failure (.runtimeUnavailable _) | .failure (.createFailed _ _)
  | .failure (.startFailed _ _) | .failure (.execFailed _ _ _ _ _)
  | .failure (.portNotPublished _) => .isFalse id
  | .request _ _ | .engine _ _ | .defect _ | .other _ _ | .interrupt _ => .isFalse id

namespace Condition

/-- Whether a condition is not waited for through its members: it is no conjunction, or one that
cannot be put in words. -/
def IsLeaf : Condition → Prop
  | all members => areDescribable members = false
  | _ => True

mutual

/-- The leaves of a condition are leaves. -/
theorem isLeaf_of_mem_leaves {c l : Condition} (h : l ∈ leaves c) : l.IsLeaf := by
  cases c with
  | all members =>
    rw [leaves] at h
    -- A group that cannot be described is a leaf of its own.
    split at h
    · exact isLeaf_of_mem_leavesAll h
    · rename_i hnot
      rw [List.mem_singleton.mp h]
      simpa [IsLeaf] using hnot
  | _ =>
    simp only [leaves, List.mem_singleton] at h
    rw [h]
    trivial

/-- The leaves of conditions are leaves. -/
theorem isLeaf_of_mem_leavesAll {cs : List Condition} {l : Condition} (h : l ∈ leavesAll cs) :
    l.IsLeaf := by
  cases cs with
  | nil => simp [leavesAll] at h
  | cons c rest =>
    simp only [leavesAll, List.mem_append] at h
    rcases h with h | h
    · exact isLeaf_of_mem_leaves h
    · exact isLeaf_of_mem_leavesAll h

end

/-- The leaves of a conjunction that can be put in words are those of its members. -/
theorem leaves_all {members : List Condition} (h : areDescribable members = true) :
    (all members).leaves = leavesAll members := by
  rw [leaves, if_pos h]

/-- A group that cannot be described has no leaf but itself. -/
theorem leaves_all_of_not_areDescribable {members : List Condition}
    (h : areDescribable members = false) : (all members).leaves = [all members] := by
  rw [leaves, if_neg (by simp [h])]

/-- One condition has its own leaves. -/
theorem leavesAll_singleton (c : Condition) : leavesAll [c] = c.leaves := by
  rw [leavesAll, leavesAll, List.append_nil]

/-- Conditions have the leaves of each, in order. -/
theorem leavesAll_eq_flatMap (cs : List Condition) : leavesAll cs = cs.flatMap leaves := by
  induction cs with
  | nil => rfl
  | cons c rest ih => rw [leavesAll, ih, List.flatMap_cons]

end Condition

namespace Readiness

/-- A world that leaves the failure to be ready to the waits: neither the engine nor a URL raises
it. -/
structure Scene.LeavesReadinessToWaits (scene : Scene) : Prop where
  logs : ∀ f, scene.box.logsFault = some f → ¬ f.IsUnready
  logEnd : ∀ f, scene.box.logEndFault = some f → ¬ f.IsUnready
  health : ∀ t f, scene.box.healthAt t = .error f → ¬ f.IsUnready
  http : ∀ url t f, scene.world.replyAt url t = .fault f → ¬ f.IsUnready

/-! ### What a leaf ends with -/

/-- Whether the world raises a fault in a wait: the engine does, or a URL raises one that is not of
requests. -/
def Scene.Raises (scene : Scene) (f : Fault) : Prop :=
  scene.box.logsFault = some f ∨ scene.box.logEndFault = some f ∨
    (∃ t, scene.box.healthAt t = .error f) ∨
    ∃ url t, scene.world.replyAt url t = .fault f ∧ ∀ name text, f ≠ .request name text

/-- Whether a leaf that can be put in words itself raises a fault, since it cannot be waited for:
its port is not published, its delay is too long to be a number of seconds, it is of no known kind,
or it would be asked without end at one moment. -/
def Scene.Bars (scene : Scene) : Condition → Fault → Prop
  | .http p, f => scene.container.endpoint p.port = .error f ∨
      f = .defect .stalled ∧ ¬ 0 < Http.interval p scene.settings
  | .delay millis, f => Delay.lengthOf millis = .error f
  | .healthcheck, f =>
      f = .defect .stalled ∧ ¬ 0 < Clock.ofSeconds scene.settings.healthPollInterval
  | .foreign label, f => f = .defect (.unsupportedCondition label)
  | _, _ => False

/-- Whether a leaf itself raises a fault: since it cannot be put in words, or else since it cannot
be waited for. -/
def Scene.Refuses (scene : Scene) (c : Condition) (f : Fault) : Prop :=
  if c.isDescribable then scene.Bars c f else f = .defect .integerTooLong

/-- Whether a fault is the failure to reach one condition, with a reason that is no empty text. -/
def Names (description : String) (d : Deadline) (f : Fault) : Prop :=
  ∃ reason, f = unmet description d reason ∧ reason ≠ some ""

section
variable {scene : Scene} {d : Deadline} {now : Int} {f : Fault}

/-- A condition that can be described is waited for. -/
theorem described_of_isDescribable {c : Condition} (h : c.isDescribable = true)
    (w : Deadline → Int → Ending) : described c w d now = w d now := by
  rw [described, if_pos h]

/-- A condition that cannot be put in words is refused at once. -/
theorem wait_of_not_isDescribable {c : Condition} (h : c.isDescribable = false) (d : Deadline)
    (now : Int) : wait scene c d now = .failed now (.defect .integerTooLong) := by
  cases c with
  | log _ | healthcheck | foreign _ => cases h
  | http _ | delay _ | all _ =>
    rw [wait, described, if_neg (by simp [h])]

/-- A delay fails since it is overlong, or as its own failure. -/
theorem Delay.fault_of_wait {millis : Nat} (h : (Delay.wait millis d now).fault = some f) :
    Delay.lengthOf millis = .error f ∨ Names (Condition.delay millis).describe d f := by
  unfold Delay.wait at h
  simp only [Ending.after] at h
  -- Too long for the clock, too long for the deadline, ended after the deadline, or slept in full.
  split at h
  · rename_i e he
    cases h
    exact .inl he
  · split at h
    · cases h
      exact .inr ⟨_, rfl, by decide⟩
    · split at h
      · cases h
        exact .inr ⟨_, rfl, by decide⟩
      · cases h

/-- A wait for the log fails by what the world raises, or as its own failure. -/
theorem Log.fault_of_wait {m : LogMessage} (h : (Log.wait scene m d now).fault = some f) :
    scene.Raises f ∨ Names m.describe d f := by
  unfold Log.wait at h
  simp only [Ending.after] at h
  split at h
  · rename_i e he
    cases h
    exact .inl (.inl he)
  · split at h
    · rename_i t fault hv
      split at h
      · -- The stream ended: with the fault of the box, or with the failure to be ready.
        simp only at h
        subst h
        unfold Log.verdict at hv
        simp only at hv
        split at hv
        · cases hv
        · obtain ⟨ends, -, hended⟩ := Option.map_eq_some_iff.mp hv
          unfold Log.ended at hended
          split at hended
          · cases hended
            refine .inr ⟨_, rfl, ?_⟩
            rw [Ne, Option.some.injEq]
            exact fun he => absurd (String.append_eq_empty_iff.mp he).2 (by decide)
          · rename_i e hend
            split at hended <;> cases hended
            · exact .inr ⟨_, rfl, by decide⟩
            · exact .inl (.inr (.inl hend))
      · cases h
        exact .inr ⟨_, rfl, by decide⟩
    · cases h
      exact .inr ⟨_, rfl, by decide⟩

/-- A wait for the healthcheck fails by what the world raises, by its interval, or as its own
failure. -/
theorem Health.fault_of_wait (h : (Health.wait scene d now).fault = some f) :
    scene.Raises f ∨ scene.Bars .healthcheck f ∨ Names Health.description d f := by
  -- Along the questions: a fault, the end of the time, or the next question.
  fun_induction Health.wait scene d now with
  | case1 now asked e he =>
    cases h
    exact .inl (.inr (.inr (.inl ⟨now, he⟩)))
  | case2 now asked hnone =>
    cases h
    exact .inr (.inr ⟨_, rfl, by decide⟩)
  | case3 now asked status hstatus ih =>
    simp only [asked, Ending.after] at h
    split at h
    · cases h
    · split at h
      · cases h
        refine .inr (.inr ⟨_, rfl, ?_⟩)
        rw [Ne, Option.some.injEq]
        exact fun he => absurd (String.append_eq_empty_iff.mp he).1 (by decide)
      · rename_i hexp
        split at h
        · rename_i hnext
          exact ih hexp hnext h
        · rename_i hnext
          cases h
          exact .inr (.inl ⟨rfl, fun hpos => hnext (Deadline.lt_sleep hexp hpos)⟩)

/-- A poll fails by what the world raises, by its interval, or as its own failure. -/
theorem Http.fault_of_poll {p : HttpProbe} {url : String}
    (h : (Http.poll scene p url d now).fault = some f) :
    scene.Raises f ∨ scene.Bars (.http p) f ∨ Names p.describe d f := by
  fun_induction Http.poll scene p url d now with
  | case1 now hexp =>
    cases h
    exact .inr (.inr ⟨_, rfl, by decide⟩)
  | case2 now hexp limit met ih =>
    simp only [Ending.after] at h
    split at h
    · rename_i e he
      cases h
      -- A fault that ends the wait is one of the URL.
      have hmet : (Http.meet p (scene.world.replyAt url now) limit now).2 = .error f := he
      unfold Http.meet at hmet
      split at hmet
      · split at hmet <;> cases hmet
      · cases hmet
      · rename_i e hother hreply
        cases hmet
        exact .inl (.inr (.inr (.inr ⟨url, now, hreply, hother⟩)))
    · cases h
    · split at h
      · rename_i hnext
        exact ih hnext h
      · rename_i hnext
        cases h
        exact .inr (.inl (.inr ⟨rfl, fun hpos => hnext (Http.lt_sleep_meet p _ limit hexp hpos)⟩))

/-- What a leaf ends with if it does not end well: a fault of the world, one of its own, or the
failure that it was not reached. -/
theorem fault_of_leaf {c : Condition} (hc : c.IsLeaf) (h : (wait scene c d now).fault = some f) :
    scene.Raises f ∨ scene.Refuses c f ∨ Names c.describe d f := by
  unfold Scene.Refuses
  -- What cannot be described is refused before it is waited for.
  cases hwords : c.isDescribable with
  | false =>
    rw [wait_of_not_isDescribable hwords] at h
    cases h
    exact .inr (.inl rfl)
  | true =>
    rw [if_pos rfl]
    cases c with
    | log m => exact (Log.fault_of_wait h).imp_right .inr
    | http p =>
      rw [wait, described_of_isDescribable hwords, Http.wait] at h
      split at h
      · rename_i e he
        cases h
        exact .inr (.inl (.inl he))
      · exact Http.fault_of_poll h
    | delay millis =>
      rw [wait, described_of_isDescribable hwords] at h
      exact .inr (Delay.fault_of_wait h)
    | healthcheck => exact Health.fault_of_wait h
    | all members =>
      have hnot : Condition.areDescribable members = false := hc
      rw [Condition.isDescribable, hnot] at hwords
      cases hwords
    | foreign label =>
      cases h
      exact .inr (.inl rfl)

/-- In such a world no failure to be ready is raised. -/
theorem Scene.LeavesReadinessToWaits.not_isUnready (hworld : scene.LeavesReadinessToWaits)
    (h : scene.Raises f) : ¬ f.IsUnready := by
  rcases h with h | h | ⟨t, h⟩ | ⟨url, t, h, -⟩
  · exact hworld.logs f h
  · exact hworld.logEnd f h
  · exact hworld.health t f h
  · exact hworld.http url t f h

/-- A delay that is too long is a defect, and a port that is not published a failure of its own. -/
theorem Scene.Bars.not_isUnready {c : Condition} (h : scene.Bars c f) : ¬ f.IsUnready := by
  -- Ports, lengths, intervals and foreign conditions have faults of other kinds.
  cases c with
  | log m => exact h.elim
  | http p =>
    rcases h with h | ⟨rfl, -⟩
    · unfold Container.endpoint Container.resolve at h
      split at h
      · cases h
      · cases h
        exact id
    · exact id
  | delay millis =>
    change Delay.lengthOf millis = .error f at h
    unfold Delay.lengthOf at h
    split at h
    · cases h
    · cases h
      exact id
  | healthcheck =>
    obtain ⟨rfl, -⟩ := h
    exact id
  | all members => exact h.elim
  | foreign label =>
    cases h
    exact id

/-- No condition refuses with a failure to be ready. -/
theorem Scene.Refuses.not_isUnready {c : Condition} (h : scene.Refuses c f) : ¬ f.IsUnready := by
  unfold Scene.Refuses at h
  split at h
  · exact h.not_isUnready
  · rw [h]
    exact id

/-- A leaf that was not reached names itself. -/
theorem wait_fault_of_isLeaf (hworld : scene.LeavesReadinessToWaits) {c : Condition}
    (hc : c.IsLeaf) (h : (wait scene c d now).fault = some f) (hu : f.IsUnready) :
    ∃ reason, f = unmet c.describe d reason ∧ reason ≠ some "" := by
  rcases fault_of_leaf hc h with hraises | hrefuses | hnames
  · exact absurd hu (hworld.not_isUnready hraises)
  · exact absurd hu hrefuses.not_isUnready
  · exact hnames

/-! ### A leaf against a child -/

/-- An ending against a child of a deadline that comes with the fault of an ending against the
deadline, and hardly later. -/
structure Trails (d : Deadline) (e e' : Ending) : Prop where
  fault : e'.fault = e.fault
  le_stop : e.stop ≤ e'.stop
  stop_le : e'.stop ≤ e.stop + d.lag

namespace Trails

/-- An end trails itself. -/
theorem refl (d : Deadline) (e : Ending) : Trails d e e :=
  ⟨rfl, Int.le_refl _, by have := d.lag_nonneg; omega⟩

/-- A note in front of both changes nothing. -/
theorem after {e e' : Ending} (h : Trails d e e') (n : World.Note) :
    Trails d (Ending.after now n e) (Ending.after now n e') :=
  ⟨h.fault, h.le_stop, h.stop_le⟩

/-- Two waits that end with one fault after sleeps that started together. -/
theorem failed_sleep {t : Int} (h : now ≤ t) (length : Int) (f : Fault) :
    Trails d (Ending.failed (d.sleep t length) f)
      (Ending.failed ((d.child now).sleep t length) f) := by
  rcases d.sleep_child h length with hs | ⟨hd, -, hle, hlt⟩
  · rw [hs]
    exact refl d _
  · refine ⟨rfl, hle, ?_⟩
    simp only [Ending.failed, Deadline.lag, hd, if_false]
    omega

end Trails

/-- Under the child of a deadline a delay trails. -/
theorem Delay.wait_child (millis : Nat) :
    Trails d (Delay.wait millis d now) (Delay.wait millis (d.child now) now) := by
  have hnow := Int.le_refl now
  have hr := d.remaining_child hnow
  unfold Delay.wait
  simp only
  refine Trails.after ?_ _
  split
  · exact Trails.refl d _
  · rename_i length hlength
    rw [hr, d.isCancelled_child]
    split
    · exact Trails.failed_sleep hnow length _
    · -- Both sleeps end cancelled or neither does.
      rcases d.sleep_child hnow length with hs | ⟨hd, hc, hle, hlt⟩
      · rw [hs]
        exact Trails.refl d _
      · rw [hc, Deadline.isCancelled_mono hle hc]
        exact Trails.failed_sleep hnow length _

/-- What the end of a stream tells is the same against a child. -/
theorem Log.ended_child (m : LogMessage) {ends : Int} (h : now ≤ ends) :
    Log.ended scene m (d.child now) ends = Log.ended scene m d ends := by
  unfold Log.ended
  rw [d.overFrom_child h]
  rfl

/-- A wait for the log is the same under the child. -/
theorem Log.wait_child (m : LogMessage) :
    Log.wait scene m (d.child now) now = Log.wait scene m d now := by
  have hv : Log.verdict scene m (d.child now) now = Log.verdict scene m d now := by
    unfold Log.verdict
    simp only
    split
    · rfl
    · rename_i t hread
      -- What the end of the stream tells is told after the wait has begun.
      have ht := (Log.le_read _ _ _).2 t hread
      have hended : ∀ ends, Log.ended scene m (d.child now) (max t ends) =
          Log.ended scene m d (max t ends) := fun ends => Log.ended_child m (by omega)
      simp only [hended]
  unfold Log.wait
  rw [hv, d.givesUp_child]
  rfl

/-- So is one for the healthcheck, if the deadline itself is not cancelled. -/
theorem Health.wait_child (hd : d.cancel = none) {t : Int} (ht : now ≤ t) :
    Health.wait scene (d.child now) t = Health.wait scene d t := by
  fun_induction Health.wait scene d t with
  | case1 t asked e he =>
    rw [Health.wait, he]
  | case2 t asked hnone =>
    rw [Health.wait, hnone]
    rfl
  | case3 t asked status hstatus ih =>
    rw [Health.wait, hstatus]
    -- Both waits ask at the same moments, so they are told the same.
    simp only [d.isExpired_child ht, d.sleep_child_of_cancel_eq_none hd ht]
    split
    · rfl
    · split
      · rfl
      · rename_i hexp
        split
        · rename_i hnext
          rw [ih hexp hnext (by omega)]
        · rfl

/-- A poll under an expired deadline fails at once. -/
theorem Http.poll_of_isExpired {p : HttpProbe} {url : String} {t : Int}
    (h : d.isExpired t = true) :
    Http.poll scene p url d t = Ending.failed t (unmet p.describe d none) := by
  rw [Http.poll, dif_pos h]

/-- After a request that was not answered as expected the two waits sleep. They wake together and go
on, or both wake cancelled and give up. -/
theorem Http.poll_child {p : HttpProbe} {url : String} {t : Int} (ht : now ≤ t)
    (hu : ∀ f, (Http.poll scene p url d t).fault = some f → f.IsUnready) :
    Trails d (Http.poll scene p url d t) (Http.poll scene p url (d.child now) t) := by
  fun_induction Http.poll scene p url d t with
  | case1 t hexp =>
    rw [Http.poll_of_isExpired (by rw [d.isExpired_child ht]; exact hexp)]
    exact Trails.refl d _
  | case2 t hexp limit met ih =>
    have hexp' : ¬ (d.child now).isExpired t = true := by
      rw [d.isExpired_child ht]
      exact hexp
    have hlimit : Http.timeout scene.settings (d.child now) t = limit := by
      rw [Http.timeout, d.remaining_child ht]
      rfl
    have hmet : t ≤ met.1 := Http.le_meet p _ limit t
    have hfold : Http.meet p (scene.world.replyAt url t) limit t = met := rfl
    -- The first request is the same in both waits, and so is its answer.
    rw [Http.poll, dif_neg hexp']
    simp only [hlimit, hfold]
    refine Trails.after ?_ _
    simp only [Ending.after] at hu
    cases hverdict : met.2 with
    | error e => exact Trails.refl d _
    | ok answered =>
      simp only [hverdict] at hu
      cases answered with
      | true => exact Trails.refl d _
      | false =>
        simp only at hu ⊢
        split at hu
        · rename_i hnext
          rw [dif_pos hnext]
          rcases d.sleep_child (Int.le_trans ht hmet) (Http.interval p scene.settings) with
            hs | ⟨hd, hc, hle, hlt⟩
          · rw [hs, dif_pos hnext]
            exact ih hnext (by omega) hu
          · -- Cut short at different moments, but neither wait makes another request.
            have hc' : (d.child now).isCancelled
                ((d.child now).sleep met.1 (Http.interval p scene.settings)) = true := by
              rw [d.isCancelled_child]
              exact Deadline.isCancelled_mono hle hc
            rw [dif_pos (Int.lt_of_lt_of_le hnext hle),
              Http.poll_of_isExpired (Deadline.isExpired_of_isCancelled hc),
              Http.poll_of_isExpired (Deadline.isExpired_of_isCancelled hc')]
            exact Trails.failed_sleep (Int.le_trans ht hmet) _ _
        · exact (hu _ rfl).elim

/-- Under the child a wait for an endpoint trails. -/
theorem Http.wait_child {p : HttpProbe}
    (hu : ∀ f, (Http.wait scene p d now).fault = some f → f.IsUnready) :
    Trails d (Http.wait scene p d now) (Http.wait scene p (d.child now) now) := by
  unfold Http.wait at hu ⊢
  split
  · exact Trails.refl d _
  · rename_i address haddress
    rw [haddress] at hu
    exact Http.poll_child (Int.le_refl now) hu

/-- A leaf that ends well or unready against a deadline ends so against a child of it, and hardly
later. A healthcheck does if the deadline itself is never cancelled. -/
theorem wait_child_of_isLeaf {c : Condition} (hc : c.IsLeaf)
    (hd : d.cancel = none ∨ c ≠ .healthcheck)
    (hu : ∀ f, (wait scene c d now).fault = some f → f.IsUnready) :
    Trails d (wait scene c d now) (wait scene c (d.child now) now) := by
  -- Whether it can be described does not depend on the deadline.
  cases hwords : c.isDescribable with
  | false =>
    rw [wait_of_not_isDescribable hwords, wait_of_not_isDescribable hwords]
    exact Trails.refl d _
  | true =>
    cases c with
    | log m =>
      simp only [wait, Log.wait_child]
      exact Trails.refl d _
    | http p =>
      simp only [wait, described_of_isDescribable hwords] at hu ⊢
      exact Http.wait_child hu
    | delay millis =>
      simp only [wait, described_of_isDescribable hwords]
      exact Delay.wait_child millis
    | healthcheck =>
      rcases hd with hd | hne
      · simp only [wait, Health.wait_child hd (Int.le_refl now)]
        exact Trails.refl d _
      · exact absurd rfl hne
    | all members =>
      have hnot : Condition.areDescribable members = false := hc
      rw [Condition.isDescribable, hnot] at hwords
      cases hwords
    | foreign label => exact Trails.refl d _

end

end Readiness
end Slipway
