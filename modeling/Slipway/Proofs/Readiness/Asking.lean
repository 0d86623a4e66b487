import Slipway.Proofs.Deadline
import Slipway.Readiness.Evaluation

/-!
# `Slipway.Proofs.Readiness.Asking`: a wait only asks

A wait does nothing to its container. `wait_asks` and `waitAll_asks` state it for every condition:
the wait ends no earlier than it starts, and all that it notes are questions of its container,
requests and warnings, each noted while the wait lasts. `Ending.Asks` is that property of an ending.

Each kind of wait has its own lemma. The two that poll go by induction on their own recursion, and a
group has the property if its members have it.
-/

set_option autoImplicit false

namespace Slipway

/-- Whether a note is a question of a container, a request or a warning. -/
def World.Note.IsQuestion (id : String) : World.Note → Prop
  | .probe i _ => i = id
  | .request _ => True
  | .caution _ => True
  | _ => False

namespace Readiness

open Slipway.World (Note Entry)

/-- A wait that started now ended later or now, and noted only questions of a container meanwhile.
-/
structure Ending.Asks (id : String) (now : Int) (e : Ending) : Prop where
  le_stop : now ≤ e.stop
  notes : ∀ x ∈ e.trace, now ≤ x.time ∧ x.time ≤ e.stop ∧ x.note.IsQuestion id

namespace Ending

variable {id : String} {now t : Int} {e : Ending}

/-- An ending without notes only has to come in time. -/
theorem asks_of_trace_nil (hs : now ≤ e.stop) (ht : e.trace = []) : e.Asks id now :=
  ⟨hs, fun x hx => by simp [ht] at hx⟩

/-- An end without a trace asks nothing. -/
theorem asks_well (h : now ≤ t) : (well t).Asks id now := asks_of_trace_nil h rfl

/-- Nor does a failure without a trace. -/
theorem asks_failed (h : now ≤ t) (f : Fault) : (failed t f).Asks id now := asks_of_trace_nil h rfl

/-- A wait that went on later asks from an earlier moment on. -/
theorem Asks.earlier (h : e.Asks id t) (hnow : now ≤ t) : e.Asks id now := by
  refine ⟨Int.le_trans hnow h.le_stop, fun x hx => ?_⟩
  obtain ⟨ht, hs, hq⟩ := h.notes x hx
  exact ⟨Int.le_trans hnow ht, hs, hq⟩

/-- One more question at the start. -/
theorem Asks.after (h : e.Asks id now) {n : Note} (hn : n.IsQuestion id) :
    (Ending.after now n e).Asks id now := by
  refine ⟨h.le_stop, fun x hx => ?_⟩
  rcases List.mem_cons.mp hx with rfl | hx
  · exact ⟨Int.le_refl now, h.le_stop, hn⟩
  · exact h.notes x hx

end Ending

/-! ### The kinds -/

/-- A delay asks nothing. -/
theorem Delay.wait_asks (id : String) (millis : Nat) (d : Deadline) (now : Int) :
    (Delay.wait millis d now).Asks id now := by
  unfold Delay.wait
  simp only
  refine Ending.Asks.after ?_ trivial
  -- Overlong, cut, ended too late, or slept in full: in each case nothing is asked.
  split
  · exact Ending.asks_failed (Int.le_refl now) _
  · have hs := d.le_sleep now ‹Int›
    split
    · exact Ending.asks_failed hs _
    · split
      · exact Ending.asks_failed hs _
      · exact Ending.asks_well hs

/-- Reading ends no earlier than it starts. -/
theorem Log.le_read (s : Scanner) (now : Int) (chunks : List World.Chunk) :
    (∀ t, Log.read s now chunks = .found t → now ≤ t) ∧
    (∀ t, Log.read s now chunks = .exhausted t → now ≤ t) := by
  -- By the chunks: the clock stands at the last one, or where it stood.
  induction chunks generalizing s now with
  | nil =>
    refine ⟨fun t h => by simp [Log.read] at h, fun t h => ?_⟩
    simp only [Log.read, Log.Reading.exhausted.injEq] at h
    omega
  | cons c rest ih =>
    have hmax : now ≤ max now c.time := by omega
    simp only [Log.read]
    split
    · refine ⟨fun t h => ?_, fun t h => by simp at h⟩
      simp only [Log.Reading.found.injEq] at h
      omega
    · obtain ⟨hf, he⟩ := ih (s.feed c.data) (max now c.time)
      exact ⟨fun t h => Int.le_trans hmax (hf t h), fun t h => Int.le_trans hmax (he t h)⟩

/-- What the end of a stream tells it tells no earlier. -/
theorem Log.le_ended {scene : Scene} {m : LogMessage} {d : Deadline} {ends t : Int}
    {f : Option Fault} (h : Log.ended scene m d ends = (t, f)) : ends ≤ t := by
  unfold Log.ended at h
  split at h
  · cases h
    exact Int.le_refl _
  · split at h <;> cases h
    · exact Int.le_max_left _ _
    · exact Int.le_refl _

/-- A stream tells something no earlier than it is read. -/
theorem Log.le_verdict {scene : Scene} {m : LogMessage} {d : Deadline} {now t : Int}
    {f : Option Fault} (h : Log.verdict scene m d now = some (t, f)) : now ≤ t := by
  unfold Log.verdict at h
  simp only at h
  -- The text was found, or the stream has ended without it.
  split at h
  · rename_i u hu
    simp only [Option.some.injEq, Prod.mk.injEq] at h
    have := (Log.le_read _ _ _).1 u hu
    omega
  · rename_i u hu
    have := (Log.le_read _ _ _).2 u hu
    obtain ⟨ends, -, hended⟩ := Option.map_eq_some_iff.mp h
    have := Log.le_ended hended
    omega

/-- A wait for the log reads it once. -/
theorem Log.wait_asks (scene : Scene) (m : LogMessage) (d : Deadline) (now : Int) :
    (Log.wait scene m d now).Asks scene.container.id now := by
  unfold Log.wait
  simp only
  refine Ending.Asks.after ?_ rfl
  have hg := d.le_givesUp now
  -- Unless the log is refused, it is read until the verdict or until the wait gives up.
  split
  · exact Ending.asks_failed (Int.le_refl now) _
  · split
    · rename_i t f hv
      split
      · exact Ending.asks_of_trace_nil (Log.le_verdict hv) rfl
      · exact Ending.asks_failed hg _
    · exact Ending.asks_failed hg _

/-- A wait for the healthcheck asks for the status only. -/
theorem Health.wait_asks (scene : Scene) (d : Deadline) (now : Int) :
    (Health.wait scene d now).Asks scene.container.id now := by
  -- The induction is on the questions. Each later one is asked within the earlier wait.
  fun_induction Health.wait scene d now with
  | case1 => exact (Ending.asks_failed (Int.le_refl _) _).after rfl
  | case2 => exact (Ending.asks_failed (Int.le_refl _) _).after rfl
  | case3 now asked status hstatus ih =>
    refine Ending.Asks.after ?_ rfl
    split
    · exact Ending.asks_well (Int.le_refl now)
    · split
      · exact Ending.asks_failed (Int.le_refl now) _
      · rename_i hexp
        simp only
        split
        · rename_i hnext
          exact (ih hexp hnext).earlier (Int.le_of_lt hnext)
        · exact Ending.asks_failed (Int.le_refl now) _

/-- A request is over no earlier than it is made. -/
theorem Http.le_meet (p : HttpProbe) (reply : World.Reply) (timeout now : Int) :
    now ≤ (Http.meet p reply timeout now).1 := by
  unfold Http.meet
  split
  · split
    · exact Clock.le_after now timeout
    · exact Clock.le_after now _
  · exact Int.le_refl now
  · exact Int.le_refl now

/-- Time goes by between two requests: while the first is made, or else in the sleep after it. -/
theorem Http.lt_sleep_meet (p : HttpProbe) (reply : World.Reply) (timeout : Int) {d : Deadline}
    {now length : Int} (hexp : ¬ d.isExpired now = true) (hlength : 0 < length) :
    now < d.sleep (Http.meet p reply timeout now).1 length := by
  have hmet : now ≤ (Http.meet p reply timeout now).1 := Http.le_meet p reply timeout now
  rcases Int.lt_or_eq_of_le hmet with hlt | heq
  · exact Int.lt_of_lt_of_le hlt (d.le_sleep _ length)
  · rw [← heq]
    exact Deadline.lt_sleep hexp hlength

/-- A poll asks the server only. -/
theorem Http.poll_asks (scene : Scene) (p : HttpProbe) (url : String) (d : Deadline) (now : Int) :
    (Http.poll scene p url d now).Asks scene.container.id now := by
  fun_induction Http.poll scene p url d now with
  | case1 now hexp => exact Ending.asks_failed (Int.le_refl now) _
  | case2 now hexp limit met ih =>
    have hmet : now ≤ met.1 := Http.le_meet p _ limit now
    refine Ending.Asks.after ?_ trivial
    -- The request breaks off, it is good, or another one follows.
    split
    · exact Ending.asks_failed hmet _
    · exact Ending.asks_well hmet
    · simp only
      split
      · rename_i hnext
        exact (ih hnext).earlier (Int.le_of_lt hnext)
      · exact Ending.asks_failed (Int.le_refl now) _

/-- So does a wait for an endpoint. -/
theorem Http.wait_asks (scene : Scene) (p : HttpProbe) (d : Deadline) (now : Int) :
    (Http.wait scene p d now).Asks scene.container.id now := by
  unfold Http.wait
  split
  · exact Ending.asks_failed (Int.le_refl now) _
  · exact Http.poll_asks scene p _ d now

/-! ### Groups -/

namespace Group

/-- A group lasts as long as it has to: it ends no earlier than it starts, and no earlier than any
of its members. -/
theorem le_lastStop (now : Int) (members : List Ending) :
    now ≤ lastStop now members ∧ ∀ e ∈ members, e.stop ≤ lastStop now members := by
  induction members generalizing now with
  | nil => exact ⟨Int.le_refl now, fun e he => by simp at he⟩
  | cons e rest ih =>
    obtain ⟨hmax, hrest⟩ := ih (max now e.stop)
    have hstep : lastStop now (e :: rest) = lastStop (max now e.stop) rest := rfl
    rw [hstep]
    refine ⟨by omega, fun f hf => ?_⟩
    rcases List.mem_cons.mp hf with rfl | hf
    · omega
    · exact hrest f hf

/-- What is joined asks what its members ask. -/
theorem join_asks {id : String} (d : Deadline) {now : Int} {members : List Ending}
    (h : ∀ e ∈ members, e.Asks id now) : (join d now members).Asks id now := by
  obtain ⟨hnow, hstop⟩ := le_lastStop now members
  refine ⟨hnow, fun x hx => ?_⟩
  obtain ⟨e, he, hxe⟩ := List.mem_flatMap.mp hx
  obtain ⟨ht, hs, hq⟩ := (h e he).notes x hxe
  exact ⟨ht, Int.le_trans hs (hstop e he), hq⟩

/-- So does a group. -/
theorem wait_asks {id : String} {members : List (Deadline → Int → Ending)}
    (h : ∀ m ∈ members, ∀ d now, (m d now).Asks id now) (d : Deadline) (now : Int) :
    (wait members d now).Asks id now := by
  unfold wait
  simp only
  -- Whether the child is cancelled or not, the members are waits from the same moment.
  split
  all_goals
    refine join_asks d fun e he => ?_
    obtain ⟨m, hm, rfl⟩ := List.mem_map.mp he
    exact h m hm _ now

end Group

/-- So do conditions that are waited for together. -/
theorem waitForAll_asks {id : String} {members : List (Deadline → Int → Ending)}
    (h : ∀ m ∈ members, ∀ d now, (m d now).Asks id now) (d : Deadline) (now : Int) :
    (waitForAll members d now).Asks id now := by
  unfold waitForAll
  split
  · exact Ending.asks_well (Int.le_refl now)
  · exact h _ (List.mem_singleton.mpr rfl) d now
  · exact Group.wait_asks h d now

/-- A condition that can be put in words is waited for by the wait of its kind, and any other is
refused at once. -/
theorem described_cases {P : Ending → Prop} {c : Condition} {w : Deadline → Int → Ending}
    {d : Deadline} {now : Int} (hw : c.isDescribable = true → P (w d now))
    (hrefused : c.isDescribable = false → P (.failed now (.defect .integerTooLong))) :
    P (described c w d now) := by
  unfold described
  split
  · rename_i h
    exact hw h
  · rename_i h
    exact hrefused (by simpa using h)

mutual

/-- The wait for a condition only asks. -/
theorem wait_asks (scene : Scene) (c : Condition) (d : Deadline) (now : Int) :
    (wait scene c d now).Asks scene.container.id now := by
  -- Each kind of condition has its own questions, and one that cannot be described has none.
  cases c with
  | log m => exact Log.wait_asks scene m d now
  | http p =>
    exact described_cases (fun _ => Http.wait_asks scene p d now)
      fun _ => Ending.asks_failed (Int.le_refl now) _
  | delay millis =>
    exact described_cases (fun _ => Delay.wait_asks _ millis d now)
      fun _ => Ending.asks_failed (Int.le_refl now) _
  | healthcheck => exact Health.wait_asks scene d now
  | all members =>
    exact described_cases (fun _ => waitForAll_asks (waits_ask scene members) d now)
      fun _ => Ending.asks_failed (Int.le_refl now) _
  | foreign label => exact Ending.asks_failed (Int.le_refl now) _

/-- The waits for some conditions only ask. -/
theorem waits_ask (scene : Scene) (cs : List Condition) :
    ∀ m ∈ waits scene cs, ∀ d now, (m d now).Asks scene.container.id now := by
  cases cs with
  | nil => intro m hm; simp [waits] at hm
  | cons c rest =>
    intro m hm
    simp only [waits, List.mem_cons] at hm
    rcases hm with rfl | hm
    · exact wait_asks scene c
    · exact waits_ask scene rest m hm

end

/-- The wait for conditions that all have to hold only asks. -/
theorem waitAll_asks (scene : Scene) (conditions : List Condition) (d : Deadline) (now : Int) :
    (waitAll scene conditions d now).Asks scene.container.id now :=
  waitForAll_asks (waits_ask scene conditions) d now

end Readiness
end Slipway
