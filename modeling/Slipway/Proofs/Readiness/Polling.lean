import Slipway.Proofs.Readiness.Punctual
import Slipway.Proofs.Scanner

/-!
# `Slipway.Proofs.Readiness.Polling`: what polling finds

A wait for an answer over HTTP makes requests until one is answered as expected. `Polled` says how
that goes: all requests are made before the deadline expires; the last one has the expected answer
and ends the wait well, or none has it and the wait fails, naming its condition. One request that is
not answered as expected comes before the rest of the wait (`Polled.after`), and so `poll_polled`
goes by induction on the requests.

The other direction is about a URL that answers as expected from some moment on. A request that was
made before that moment may be waited for in vain, for as long as requests wait, and an interval
follows. Then comes a request that is answered. `answeredBy` is the latest end of all this, each of
the three waits with its overshoot, and `poll_of_stable` says that the wait ends well by then if the
deadline is later.

`wait_until_answered` puts both together.
-/

set_option autoImplicit false

namespace Slipway.Readiness.Http

open Slipway.World (Entry Reply)

/-! ### Answers -/

/-- Whether a reply is the expected answer, and comes within a length of time: it has the expected
status and, if a text is expected in its body, has that text in it. -/
def IsAnswer (p : HttpProbe) (limit : Int) (reply : Reply) : Prop :=
  ∃ body delay, reply = .answer p.expectedStatus body delay ∧ delay ≤ limit ∧
    ∀ part, p.expectedBody = some part → part.toList <:+: body.toList

/-- An answer is expected by its status, and by a part of its body if one is asked for. -/
theorem isExpected_iff {p : HttpProbe} {status : Int} {body : String} :
    isExpected p status body = true ↔ status = p.expectedStatus ∧
      ∀ part, p.expectedBody = some part → part.toList <:+: body.toList := by
  unfold isExpected
  cases p.expectedBody with
  | none => simp
  | some part => simp [occurs_iff]

/-- An answer that comes within the limit is judged when it is there. -/
theorem meet_answer (p : HttpProbe) (status : Int) (body : String) (delay limit now : Int) :
    meet p (.answer status body delay) limit now =
      if limit < delay then (Clock.after now limit, .ok false)
      else (Clock.after now delay, .ok (isExpected p status body)) :=
  rfl

/-- What a request comes to whose reply is an answer or a fault of requests: nothing but whether the
answer is the expected one. -/
theorem meet_snd {p : HttpProbe} {reply : Reply}
    (hreply : ∀ f, reply = .fault f → ∃ name text, f = .request name text) (limit now : Int) :
    (IsAnswer p limit reply ∧ (meet p reply limit now).2 = .ok true) ∨
      (¬ IsAnswer p limit reply ∧ (meet p reply limit now).2 = .ok false) := by
  cases reply with
  | answer status body delay =>
    rw [meet_answer]
    by_cases hlate : limit < delay
    · -- The request was given up, so it does not matter what the answer would have been.
      refine .inr ⟨?_, by rw [if_pos hlate]⟩
      rintro ⟨_, _, hanswer, hdelay, -⟩
      cases hanswer
      omega
    · rw [if_neg hlate]
      by_cases hexpected : isExpected p status body = true
      · obtain ⟨rfl, hbody⟩ := isExpected_iff.mp hexpected
        exact .inl ⟨⟨body, delay, rfl, Int.not_lt.mp hlate, hbody⟩, by rw [hexpected]⟩
      · refine .inr ⟨?_, by rw [Bool.eq_false_iff.mpr hexpected]⟩
        rintro ⟨_, _, hanswer, -, hbody⟩
        cases hanswer
        exact hexpected (isExpected_iff.mpr ⟨rfl, hbody⟩)
  | fault f =>
    obtain ⟨name, text, rfl⟩ := hreply f rfl
    refine .inr ⟨?_, rfl⟩
    rintro ⟨_, _, hanswer, -⟩
    cases hanswer

/-! ### Requests -/

section
variable (scene : Scene) (p : HttpProbe) (url : String) (d : Deadline)

/-- A request that is made at a moment. -/
def requestAt (t : Int) : Entry :=
  ⟨t, .request ⟨p.method, url, p.headers, timeout scene.settings d t, p.verifyTls⟩⟩

/-- Whether a request that is made at a moment has the expected answer. -/
def AnsweredAt (t : Int) : Prop :=
  IsAnswer p (timeout scene.settings d t) (scene.world.replyAt url t)

/-- A wait that made its requests before the deadline expired. Only the last one had the expected
answer, or none had. -/
def Polled (e : Ending) : Prop :=
  ∃ times : List Int, e.trace = times.map (requestAt scene p url d) ∧ (∀ t ∈ times, t < d.expiry) ∧
    ((∃ earlier last, times = earlier ++ [last] ∧ AnsweredAt scene p url d last ∧
        (∀ t ∈ earlier, ¬ AnsweredAt scene p url d t) ∧ e.fault = none) ∨
      ((∀ t ∈ times, ¬ AnsweredAt scene p url d t) ∧ e.fault = some (unmet p.describe d none)))

/-- Whether a URL gives answers and faults of requests only. -/
def GivesReplies : Prop :=
  ∀ t f, scene.world.replyAt url t = .fault f → ∃ name text, f = .request name text

end

section
variable {scene : Scene} {p : HttpProbe} {url : String} {d : Deadline} {now : Int}

/-- One more request at the start that is not answered as expected. -/
theorem Polled.after {e : Ending} (h : Polled scene p url d e) (hnow : now < d.expiry)
    (hanswer : ¬ AnsweredAt scene p url d now) :
    Polled scene p url d (Ending.after now (requestAt scene p url d now).note e) := by
  obtain ⟨times, htrace, hbefore, hend⟩ := h
  refine ⟨now :: times, ?_, ?_, ?_⟩
  · rw [List.map_cons, ← htrace]
    rfl
  · intro t ht
    rcases List.mem_cons.mp ht with rfl | ht
    · exact hnow
    · exact hbefore t ht
  · -- The request in front is one more without the answer, whatever ended the poll.
    rcases hend with ⟨earlier, last, rfl, hlast, hearlier, hfault⟩ | ⟨hnone, hfault⟩
    · exact .inl
        ⟨now :: earlier, last, rfl, hlast, List.forall_mem_cons.mpr ⟨hanswer, hearlier⟩, hfault⟩
    · exact .inr ⟨List.forall_mem_cons.mpr ⟨hanswer, hnone⟩, hfault⟩

/-- A wait makes one request and has the expected answer, or goes on later. -/
theorem poll_cases (hworld : GivesReplies scene url) (hpos : 0 < interval p scene.settings)
    (hexp : ¬ d.isExpired now = true) :
    (AnsweredAt scene p url d now ∧
      poll scene p url d now = Ending.after now (requestAt scene p url d now).note
        (.well (meet p (scene.world.replyAt url now) (timeout scene.settings d now) now).1)) ∨
    (¬ AnsweredAt scene p url d now ∧ ∃ next, now < next ∧
      next = d.sleep (meet p (scene.world.replyAt url now) (timeout scene.settings d now) now).1
        (interval p scene.settings) ∧
      poll scene p url d now = Ending.after now (requestAt scene p url d now).note
        (poll scene p url d next)) := by
  have hnext :=
    lt_sleep_meet p (scene.world.replyAt url now) (timeout scene.settings d now) hexp hpos
  rw [poll, dif_neg hexp]
  -- The request is answered, or there is a next one.
  rcases meet_snd (hworld now) (timeout scene.settings d now) now with
    ⟨hanswer, hmet⟩ | ⟨hanswer, hmet⟩
  · refine .inl ⟨hanswer, ?_⟩
    simp only [hmet]
    rfl
  · refine .inr ⟨hanswer, _, hnext, rfl, ?_⟩
    simp only [hmet, dif_pos hnext]
    rfl

/-- The requests of a wait. -/
theorem poll_polled (hworld : GivesReplies scene url) (hpos : 0 < interval p scene.settings) :
    Polled scene p url d (poll scene p url d now) := by
  -- The induction is on the time that is left.
  induction hleft : (d.expiry - now).toNat using Nat.strongRecOn generalizing now with
  | ind left ih =>
    by_cases hexp : d.isExpired now = true
    · rw [poll_of_isExpired hexp]
      exact ⟨[], rfl, fun t ht => absurd ht List.not_mem_nil,
        .inr ⟨fun t ht => absurd ht List.not_mem_nil, rfl⟩⟩
    · have hnow := Deadline.lt_expiry_of_not_expired hexp
      rcases poll_cases hworld hpos hexp with ⟨hanswer, hpoll⟩ | ⟨hanswer, next, hnext, -, hpoll⟩
      · rw [hpoll]
        refine ⟨[now], rfl, fun t ht => ?_, .inl ⟨[], now, rfl, hanswer, ?_, rfl⟩⟩
        · rw [List.mem_singleton.mp ht]
          exact hnow
        · exact fun t ht => absurd ht List.not_mem_nil
      · rw [hpoll]
        exact (ih _ (by omega) rfl).after hnow hanswer

/-! ### Stable answers -/

/-- When a wait has found the expected answer at the latest, if every request from a moment on is
answered within some delay: a request from before may be waited for in vain, then comes the
interval, and then the answer. Each of these three waits overshoots. -/
def answeredBy (p : HttpProbe) (s : Settings) (moment delay : Int) : Int :=
  moment + max (Clock.ofSeconds s.httpRequestTimeout) leastTimeout + interval p s + delay
    + 3 * Clock.overshoot

/-- Whether every request from a moment on is answered as expected within some delay. -/
def Answers (scene : Scene) (p : HttpProbe) (url : String) (moment delay : Int) : Prop :=
  ∀ t, moment ≤ t → IsAnswer p delay (scene.world.replyAt url t)

/-- A request never waits longer than the settings say, or than the least timeout. -/
theorem timeout_le_max (s : Settings) (d : Deadline) (now : Int) :
    timeout s d now ≤ max (Clock.ofSeconds s.httpRequestTimeout) leastTimeout := by
  unfold timeout
  omega

/-- An answer comes after its delay, but for the overshoot. -/
theorem meet_le_of_isAnswer {reply : Reply} {limit delay : Int} (h : IsAnswer p delay reply)
    (hdelay : 0 ≤ delay) (hlimit : delay ≤ limit) (now : Int) :
    (meet p reply limit now).1 ≤ now + delay + Clock.overshoot := by
  obtain ⟨body, delay', rfl, hle, -⟩ := h
  have ho := Clock.overshoot_pos
  rw [meet_answer, if_neg (by omega)]
  unfold Clock.after
  simp only
  split <;> omega

/-- From a request on, the next one comes within the time that requests wait and the interval. -/
theorem next_le (s : Settings) (reply : Reply) (hexp : ¬ d.isExpired now = true)
    (hpos : 0 < interval p s) :
    d.sleep (meet p reply (timeout s d now) now).1 (interval p s) ≤
      now + max (Clock.ofSeconds s.httpRequestTimeout) leastTimeout + interval p s
        + 2 * Clock.overshoot := by
  have ho := Clock.overshoot_pos
  have htimeout := timeout_le_max s d now
  have hmet := meet_le p reply now (timeout_le s hexp).1
  have hsleep := d.sleep_le_add (meet p reply (timeout s d now) now).1 (Int.le_of_lt hpos)
  omega

/-- A wait for a URL that answers as expected from some moment on ends well in time. -/
theorem poll_of_stable (hd : d.cancelledFrom = none) (hworld : GivesReplies scene url)
    (hpos : 0 < interval p scene.settings) {moment delay : Int} (hdelay : 0 ≤ delay)
    (htimeout : delay ≤ Clock.ofSeconds scene.settings.httpRequestTimeout)
    (hstable : Answers scene p url moment delay)
    (hexpiry : answeredBy p scene.settings moment delay < d.expiry)
    (hnow : now ≤ moment + max (Clock.ofSeconds scene.settings.httpRequestTimeout) leastTimeout
      + interval p scene.settings + 2 * Clock.overshoot) :
    (poll scene p url d now).fault = none ∧
      (poll scene p url d now).stop ≤ answeredBy p scene.settings moment delay := by
  have ho := Clock.overshoot_pos
  have hby : answeredBy p scene.settings moment delay =
      moment + max (Clock.ofSeconds scene.settings.httpRequestTimeout) leastTimeout
        + interval p scene.settings + delay + 3 * Clock.overshoot := rfl
  induction hleft : (d.expiry - now).toNat using Nat.strongRecOn generalizing now with
  | ind left ih =>
    have hexp : ¬ d.isExpired now = true := by
      rw [Deadline.isExpired_iff_of_uncancelled hd]
      omega
    have hremaining := (Deadline.remaining_eq hexp).2
    rcases poll_cases hworld hpos hexp with ⟨-, hpoll⟩ | ⟨hanswer, next, hlt, hnext, hpoll⟩
    · rw [hpoll]
      refine ⟨rfl, ?_⟩
      -- The answer has come. A request from before the moment may have been answered late.
      show (meet p _ (timeout scene.settings d now) now).1 ≤ _
      by_cases hmoment : moment ≤ now
      · have hlimit : delay ≤ timeout scene.settings d now := by
          unfold timeout
          omega
        have hmet := meet_le_of_isAnswer (hstable now hmoment) hdelay hlimit now
        omega
      · have hmet := meet_le p (scene.world.replyAt url now) now (timeout_le scene.settings hexp).1
        have hle := timeout_le_max scene.settings d now
        omega
    · -- A request that is not answered as expected comes before the moment.
      have hmoment : now < moment := by
        by_contra hge
        obtain ⟨body, delay', hreply, hle, hbody⟩ := hstable now (by omega)
        refine hanswer ⟨body, delay', hreply, ?_, hbody⟩
        unfold timeout
        omega
      have hbound := next_le (d := d) scene.settings (scene.world.replyAt url now) hexp hpos
      rw [hpoll]
      exact ih _ (by omega) (by omega) rfl

/-! ### Both together -/

/-- A wait for an answer over HTTP finds it, and nothing else.

If the port is not published the wait fails with that, and makes no request. If it is, the requests
go to its URL, which gives answers and faults of requests. Then all of them are made before the
deadline expires, and the last one has the expected answer and ends the wait well, or none has it
and the wait fails as one for just this condition. And if from a moment on every request is answered
as expected, within a delay for which requests wait, then the wait ends well: after that moment
there may be one request in vain, one interval and the answer. -/
theorem wait_until_answered (scene : Scene) (p : HttpProbe) (d : Deadline) (now : Int)
    (hpos : 0 < interval p scene.settings) :
    (scene.container.ports.lookup p.port.key = none →
      wait scene p d now = .failed now (.failure (.portNotPublished p.port.key))) ∧
    (∀ port url, scene.container.ports.lookup p.port.key = some port →
      url = p.scheme.name ++ "://" ++ (scene.container.host ++ ":" ++ toString port) ++ p.path →
      GivesReplies scene url →
        Polled scene p url d (wait scene p d now) ∧
        (d.cancelledFrom = none → ∀ moment delay, now ≤ moment → 0 ≤ delay →
          delay ≤ Clock.ofSeconds scene.settings.httpRequestTimeout →
          Answers scene p url moment delay → answeredBy p scene.settings moment delay < d.expiry →
            (wait scene p d now).fault = none ∧
            (wait scene p d now).stop ≤ answeredBy p scene.settings moment delay)) := by
  refine ⟨fun hport => ?_, fun port url hport hurl hworld => ?_⟩
  · -- Without the port there is no URL to ask, and with it there is one.
    have hendpoint : scene.container.endpoint p.port =
        .error (.failure (.portNotPublished p.port.key)) := by
      rw [Container.endpoint, Container.resolve, hport]
      rfl
    rw [wait, hendpoint]
  · have hendpoint : scene.container.endpoint p.port =
        .ok (scene.container.host ++ ":" ++ toString port) := by
      rw [Container.endpoint, Container.resolve, hport]
      rfl
    have hwait : wait scene p d now = poll scene p url d now := by
      rw [wait, hendpoint, hurl]
    rw [hwait]
    refine ⟨poll_polled hworld hpos, ?_⟩
    -- A stable answer is met by the first request after it, which starts an interval later at most.
    intro hd moment delay hnow hdelay htimeout hstable hexpiry
    have ho := Clock.overshoot_pos
    have hleast : (0 : Int) < leastTimeout := by decide
    exact poll_of_stable hd hworld hpos hdelay htimeout hstable hexpiry (by omega)

end

/-! ### A service that hesitates -/

/-- The root of a service, which has to greet. -/
def greeting : HttpProbe := { HttpProbe.get "/" (.tcp 8090) with expectedBody := some "hello" }

/-- A service that is unavailable at first. Then it answers too slowly, and from the third second on
it greets at once. -/
def hesitant : Scene where
  container := ⟨"c1", "localhost", [("8090/tcp", 40000)], none⟩
  box := .quiet
  world := { World.quiet with
    http := [("http://localhost:40000/",
      [⟨0, .answer 503 "" (50 * Clock.millisecond)⟩,
       ⟨Clock.second, .answer 200 "hello" (60 * Clock.second)⟩,
       ⟨3 * Clock.second, .answer 200 "hello there" (50 * Clock.millisecond)⟩])] }
  settings := .usual

/-- The hesitant server breaks off no request. -/
theorem hesitant_givesReplies : GivesReplies hesitant "http://localhost:40000/" := by
  intro t f h
  unfold World.replyAt at h
  split at h
  · exact ⟨_, _, (Reply.fault.inj h).symm⟩
  · rename_i point hlast
    have hmem := List.mem_of_mem_filter (List.mem_of_getLast? hlast)
    change point ∈ [_, _, _] at hmem
    simp only [List.mem_cons, List.not_mem_nil, or_false] at hmem
    rcases hmem with rfl | rfl | rfl <;> cases h

/-- From the third second on it answers as is hoped for. -/
theorem hesitant_answers : Answers hesitant greeting "http://localhost:40000/" (3 * Clock.second)
    (50 * Clock.millisecond) := by
  intro t ht
  -- All that it was to answer is told by then, and the last of it holds.
  have hcome : ∀ point ∈ (hesitant.world.http.lookup "http://localhost:40000/").getD [],
      decide (point.time ≤ t) = true := by
    have hlast : ∀ point ∈ (hesitant.world.http.lookup "http://localhost:40000/").getD [],
        point.time ≤ 3 * Clock.second := by decide
    exact fun point hpoint => decide_eq_true (Int.le_trans (hlast point hpoint) ht)
  have hreply : hesitant.world.replyAt "http://localhost:40000/" t =
      .answer 200 "hello there" (50 * Clock.millisecond) := by
    rw [World.replyAt, List.filter_eq_self.mpr hcome]
    rfl
  rw [hreply]
  refine ⟨_, _, rfl, Int.le_refl _, ?_⟩
  intro part hpart
  cases hpart
  decide

/-- The law at the hesitant server. -/
theorem wait_until_answered_of_hesitant :
    0 < interval greeting hesitant.settings ∧
      Polled hesitant greeting "http://localhost:40000/" (.start 0 (Settings.secondsOf 60))
        (wait hesitant greeting (.start 0 (Settings.secondsOf 60)) 0) ∧
      (wait hesitant greeting (.start 0 (Settings.secondsOf 60)) 0).fault = none ∧
      (wait hesitant greeting (.start 0 (Settings.secondsOf 60)) 0).stop ≤
        answeredBy greeting hesitant.settings (3 * Clock.second) (50 * Clock.millisecond) := by
  have hpos : 0 < interval greeting hesitant.settings := by decide +kernel
  have h := (wait_until_answered hesitant greeting (.start 0 (Settings.secondsOf 60)) 0 hpos).2
    40000 "http://localhost:40000/" (by decide +kernel) (by decide +kernel) hesitant_givesReplies
  exact ⟨hpos, h.1, h.2 rfl (3 * Clock.second) (50 * Clock.millisecond) (by decide) (by decide)
    (by decide +kernel) hesitant_answers (by decide +kernel)⟩

end Slipway.Readiness.Http
