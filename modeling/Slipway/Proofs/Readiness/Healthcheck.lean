import Mathlib.Data.List.Chain
import Slipway.Proofs.Readiness.Asking

/-!
# `Slipway.Proofs.Readiness.Healthcheck`: what decides a wait for the healthcheck

The healthcheck is asked at the start and then again and again, each time after the interval or
after what remains of the deadline, if that is less. As long as the container is ill and the
deadline has not expired, a question decides nothing. `Verdict` lists what a question decides, and
`Asked` says how a wait goes: only its last question decides, and the wait ends with it as decided.
One question that decides nothing comes before the rest of the wait (`Asked.after`), and so
`wait_asked` goes by induction on the questions.

The container is ill at the last question only if the deadline has expired by then. So whatever
happens up to the deadline is seen, also if the sleep before the last question was cut short:
`wait_takes_last_look` puts both together. -/

set_option autoImplicit false

namespace Slipway.Readiness.Health

open Slipway.World (Entry)

/-! ### Questions -/

section
variable (scene : Scene) (d : Deadline)

/-- How long the wait sleeps between two questions, if so much remains. -/
def interval (s : Settings) : Int := Clock.ofSeconds s.healthPollInterval

/-- What is noted of the answer that the healthcheck gives at a moment. -/
def statusAt (t : Int) : Option String :=
  match scene.box.healthAt t with
  | .ok status => status
  | .error _ => none

/-- A question that is asked at a moment. -/
def questionAt (t : Int) : Entry :=
  ⟨t, .probe scene.container.id (.health (statusAt scene t))⟩

/-- Whether the container is ill at a moment: it has a status, but not the one that is waited for.
-/
def IsIllAt (t : Int) : Prop :=
  ∃ status, scene.box.healthAt t = .ok (some status) ∧ status ≠ "healthy"

/-- What a question at a moment decides. -/
inductive Verdict (t : Int) : Option Fault → Prop where
  | healthy (h : scene.box.healthAt t = .ok (some "healthy")) : Verdict t none
  | unconfigured (h : scene.box.healthAt t = .ok none) :
      Verdict t (some (unmet description d (some "no healthcheck configured")))
  | refused (e : Fault) (h : scene.box.healthAt t = .error e) : Verdict t (some e)
  | ill (status : String) (h : scene.box.healthAt t = .ok (some status)) (hill : status ≠ "healthy")
      (hexp : d.expiry ≤ t) :
      Verdict t (some (unmet description d (some ("last status " ++ status))))

/-- Whether a question comes when it has to after another: after the interval or what remains of the
deadline, whichever is less, but for the overshoot. -/
def Follows (t next : Int) : Prop :=
  t + min (interval scene.settings) (d.remaining t) ≤ next ∧
    next ≤ t + min (interval scene.settings) (d.remaining t) + Clock.overshoot

/-- A wait that started now and asked at some moments, and at a last one, which decided it. -/
structure Asked (now : Int) (e : Ending) (earlier : List Int) (last : Int) : Prop where
  start : (earlier ++ [last]).head? = some now
  paced : (earlier ++ [last]).IsChain (Follows scene d)
  trace : e.trace = (earlier ++ [last]).map (questionAt scene)
  /-- Nothing is decided before the last question. -/
  undecided : ∀ t ∈ earlier, IsIllAt scene t ∧ t < d.expiry
  decided : Verdict scene d last e.fault
  stop : e.stop = last

end

section
variable {scene : Scene} {d : Deadline} {now : Int}

/-- A wait that one question decides. -/
theorem asked_once {f : Option Fault} (h : Verdict scene d now f) :
    Asked scene d now ⟨[questionAt scene now], now, f⟩ [] now where
  start := rfl
  paced := .singleton now
  trace := rfl
  undecided := fun _ ht => absurd ht List.not_mem_nil
  decided := h
  stop := rfl

/-- One more question at the start that decides nothing. -/
theorem Asked.after {next last : Int} {e : Ending} {earlier : List Int}
    (h : Asked scene d next e earlier last) (hill : IsIllAt scene now) (hnow : now < d.expiry)
    (hfollows : Follows scene d now next) :
    Asked scene d now (Ending.after now (questionAt scene now).note e) (now :: earlier) last where
  start := rfl
  paced := by
    have hpaced := h.paced
    have hstart := h.start
    rw [List.cons_append]
    -- The next question is the first of those that follow, or the last of all.
    cases htimes : earlier ++ [last] with
    | nil => exact .singleton now
    | cons t rest =>
      rw [htimes] at hpaced hstart
      cases hstart
      exact .cons_cons hfollows hpaced
  trace := by
    rw [List.cons_append, List.map_cons, ← h.trace]
    rfl
  undecided := List.forall_mem_cons.mpr ⟨⟨hill, hnow⟩, h.undecided⟩
  decided := h.decided
  stop := h.stop

/-- Between two questions the wait sleeps for the interval, or for what remains. -/
theorem follows_sleep (hd : d.cancelledFrom = none) (hpos : 0 < interval scene.settings)
    (hexp : ¬ d.isExpired now = true) :
    Follows scene d now (d.sleep now (interval scene.settings)) := by
  have hleft := (Deadline.remaining_eq hexp).1
  have ho := Clock.overshoot_pos
  have hlow := Deadline.add_le_slicesEnd now (min (interval scene.settings) (d.remaining now))
  have hhigh := Deadline.slicesEnd_le now (min (interval scene.settings) (d.remaining now))
  rw [Follows, Deadline.sleep_of_uncancelled hd]
  omega

/-- The questions of a wait. -/
theorem wait_asked (hd : d.cancelledFrom = none) (hpos : 0 < interval scene.settings) (now : Int) :
    ∃ earlier last, Asked scene d now (wait scene d now) earlier last := by
  fun_induction wait scene d now with
  | case1 now asked e he =>
    have hstatus : statusAt scene now = none := by rw [statusAt, he]
    refine ⟨[], now, ?_⟩
    have h := asked_once (.refused (d := d) e he)
    rw [questionAt, hstatus] at h
    exact h
  | case2 now asked hnone =>
    have hstatus : statusAt scene now = none := by rw [statusAt, hnone]
    refine ⟨[], now, ?_⟩
    have h := asked_once (.unconfigured (d := d) hnone)
    rw [questionAt, hstatus] at h
    exact h
  | case3 now asked status hanswer ih =>
    have hstatus : statusAt scene now = some status := by rw [statusAt, hanswer]
    have hquestion : ∀ e : Ending,
        asked (some status) e = Ending.after now (questionAt scene now).note e := by
      intro e
      rw [questionAt, hstatus]
    rw [hquestion]
    by_cases hhealthy : status = "healthy"
    · subst hhealthy
      rw [if_pos rfl]
      exact ⟨[], now, asked_once (.healthy hanswer)⟩
    · rw [if_neg hhealthy]
      by_cases hexp : d.isExpired now = true
      · rw [dif_pos hexp]
        have hlate := (Deadline.isExpired_iff_of_uncancelled hd).mp hexp
        exact ⟨[], now, asked_once (.ill status hanswer hhealthy hlate)⟩
      · -- The deadline has not expired, so the sleep takes time and a later question follows.
        have hnext : now < d.sleep now (Clock.ofSeconds scene.settings.healthPollInterval) :=
          Deadline.lt_sleep hexp hpos
        rw [dif_neg hexp]
        simp only [dif_pos hnext]
        obtain ⟨earlier, last, hasked⟩ := ih hexp hnext
        exact ⟨now :: earlier, last, hasked.after ⟨status, hanswer, hhealthy⟩
          (Deadline.lt_expiry_of_not_expired hexp) (follows_sleep hd hpos hexp)⟩

/-- A wait ends well that meets only statuses and whose container is healthy by the end of the
deadline, and stays so. -/
theorem Asked.fault_eq_none {e : Ending} {earlier : List Int} {last moment : Int}
    (h : Asked scene d now e earlier last) (hmoment : moment ≤ d.expiry)
    (hhealthy : ∀ t, moment ≤ t → scene.box.healthAt t = .ok (some "healthy"))
    (hstatuses : ∀ x ∈ e.trace, ∃ status, scene.box.healthAt x.time = .ok (some status)) :
    e.fault = none := by
  have hlast : questionAt scene last ∈ e.trace := by
    rw [h.trace]
    exact List.mem_map_of_mem (List.mem_append_right earlier List.mem_cons_self)
  obtain ⟨status, hstatus⟩ := hstatuses _ hlast
  have hdecided := h.decided
  generalize e.fault = fault at hdecided ⊢
  cases hdecided with
  | healthy => rfl
  | unconfigured hnone => cases hstatus.symm.trans hnone
  | refused f hf => cases hstatus.symm.trans hf
  | ill status hill hne hexp =>
    -- The deadline has expired at the last question, so the container is healthy by then.
    cases hill.symm.trans (hhealthy last (Int.le_trans hmoment hexp))
    exact absurd rfl hne

end

/-- A wait for the healthcheck is decided by its questions, and takes a last look when the deadline
has expired.

The first question is asked at once, and each further one after the interval or what remains. All
but the last find the container ill before the deadline expires, and the last decides: the container
is healthy, or it has no healthcheck, or the engine raises a fault, or the container is still ill
and the deadline has expired. And if the container is healthy from some moment on that is no later
than the end of the deadline, then a wait that meets only statuses ends well, however late that
moment is. -/
theorem wait_takes_last_look (scene : Scene) (d : Deadline) (now : Int)
    (hd : d.cancelledFrom = none) (hpos : 0 < interval scene.settings) :
    (∃ earlier last, Asked scene d now (wait scene d now) earlier last) ∧
      ∀ moment ≤ d.expiry,
        (∀ t, moment ≤ t → scene.box.healthAt t = .ok (some "healthy")) →
        (∀ x ∈ (wait scene d now).trace,
          ∃ status, scene.box.healthAt x.time = .ok (some status)) →
        (wait scene d now).fault = none := by
  obtain ⟨earlier, last, h⟩ := wait_asked hd hpos now
  exact ⟨⟨earlier, last, h⟩, fun moment hmoment hhealthy hstatuses =>
    h.fault_eq_none hmoment hhealthy hstatuses⟩

/-! ### A container that recovers late -/

/-- A container that starts, falls ill, and recovers thirty milliseconds before the deadline ends.
-/
def recovering : Scene where
  container := ⟨"c1", "localhost", [], none⟩
  box := { World.Box.quiet with health :=
    [⟨0, .ok (some "starting")⟩, ⟨120 * Clock.millisecond, .ok (some "unhealthy")⟩,
      ⟨220 * Clock.millisecond, .ok (some "healthy")⟩] }
  world := .quiet
  settings := .usual

/-- A quarter of a second: two whole intervals, and half of one. -/
def quarter : Deadline := .start 0 (.ofDecimal false 25 (-2))

/-- From 220 milliseconds on the container is healthy. -/
theorem recovering_healthy {t : Int} (ht : 220 * Clock.millisecond ≤ t) :
    recovering.box.healthAt t = .ok (some "healthy") := by
  have hcome : ∀ point ∈ recovering.box.health, decide (point.time ≤ t) = true := by
    have hlast : ∀ time ∈ recovering.box.health.map World.HealthPoint.time,
        time ≤ 220 * Clock.millisecond := by decide
    exact fun point hpoint =>
      decide_eq_true (Int.le_trans (hlast _ (List.mem_map_of_mem hpoint)) ht)
  rw [World.Box.healthAt, List.filter_eq_self.mpr hcome]
  rfl

/-- It has a status from the start on. -/
theorem recovering_status {t : Int} (ht : 0 ≤ t) :
    ∃ status, recovering.box.healthAt t = .ok (some status) := by
  unfold World.Box.healthAt
  split
  · rename_i hnone
    -- The first status is there from the start.
    have hfirst : ⟨0, .ok (some "starting")⟩ ∈ recovering.box.health.filter fun p => p.time ≤ t :=
      List.mem_filter.mpr ⟨List.mem_cons_self, decide_eq_true ht⟩
    rw [List.getLast?_eq_none_iff.mp hnone] at hfirst
    cases hfirst
  · rename_i point hlast
    have hmem : point ∈ recovering.box.health := List.mem_of_mem_filter (List.mem_of_getLast? hlast)
    change point ∈ [_, _, _] at hmem
    simp only [List.mem_cons, List.not_mem_nil, or_false] at hmem
    rcases hmem with rfl | rfl | rfl <;> exact ⟨_, rfl⟩

/-- The recovery lies between the last regular question and the end of the deadline, and is seen. -/
theorem wait_takes_last_look_of_recovering :
    quarter.cancelledFrom = none ∧ 0 < interval recovering.settings ∧
      (∃ earlier last, Asked recovering quarter 0 (wait recovering quarter 0) earlier last) ∧
      220 * Clock.millisecond ≤ quarter.expiry ∧ (wait recovering quarter 0).fault = none := by
  have hpos : 0 < interval recovering.settings := by decide
  have hexpiry : 220 * Clock.millisecond ≤ quarter.expiry := by decide
  have h := wait_takes_last_look recovering quarter 0 rfl hpos
  refine ⟨rfl, hpos, h.1, hexpiry, h.2 _ hexpiry (fun t => recovering_healthy) fun x hx => ?_⟩
  exact recovering_status ((wait_asks recovering quarter 0).notes x hx).1

end Slipway.Readiness.Health
