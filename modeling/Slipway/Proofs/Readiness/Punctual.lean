import Slipway.Proofs.Readiness.Conjunction

/-!
# `Slipway.Proofs.Readiness.Punctual`: a wait ends with its deadline

However a wait ends, it does not end much later than its deadline, and not much later than it starts
if the deadline has expired by then. `Ending.Punctual` says what much later is: the overshoot of one
timed wait, unless a request was made in the last ten milliseconds before the deadline. Such a
request is given ten milliseconds for its answer, and goes beyond the deadline by what the deadline
lacks of them.

That a wait ends at all is said by its fault. A poll that would go on without end at one moment ends
with the defect `stalled`. If the intervals between questions are positive every question comes
later than the one before, so no wait is stalled (`stalled_of_wait`): nobody raises that defect
unless the world itself does.

Both facts go from the leaves up the tree. Each kind of wait has its lemma, and the two that poll go
by induction on their own recursion. `waits_end_in_time` puts them together for conditions of all
kinds. -/

set_option autoImplicit false

namespace Slipway

namespace Readiness

open Slipway.World (Entry)

/-! ### Endings in time -/

/-- A request that may wait for its answer beyond the deadline: it is made before the deadline
expires, but less than the least time that requests wait. -/
def IsLastCall (d : Deadline) (x : Entry) : Prop :=
  (∃ r, x.note = .request r ∧ r.timeout = Http.leastTimeout) ∧
    x.time < d.expiry ∧ d.expiry < x.time + Http.leastTimeout

/-- A wait that started now ended by its deadline or at once, or with the answer to a last call. -/
def Ending.Punctual (d : Deadline) (now : Int) (e : Ending) : Prop :=
  e.stop ≤ max now d.expiry + Clock.overshoot ∨
    ∃ x ∈ e.trace, IsLastCall d x ∧ e.stop ≤ x.time + Http.leastTimeout + Clock.overshoot

namespace Ending

variable {d : Deadline} {now t : Int} {e : Ending}

/-- What ends with the deadline is punctual. -/
theorem punctual_of_stop_le (h : e.stop ≤ max now (d.expiry + Clock.overshoot)) :
    e.Punctual d now := by
  have ho := Clock.overshoot_pos
  exact .inl (by omega)

/-- A wait that went on later was still punctual for its start, if the deadline had not expired
meanwhile. -/
theorem Punctual.earlier (h : e.Punctual d t) (ht : t ≤ max now d.expiry) : e.Punctual d now := by
  refine h.imp (fun hle => ?_) id
  omega

/-- A note in front changes nothing. -/
theorem Punctual.after (h : e.Punctual d now) (n : World.Note) :
    (Ending.after t n e).Punctual d now := by
  refine h.imp id ?_
  rintro ⟨x, hx, hcall, hle⟩
  exact ⟨x, List.mem_cons_of_mem _ hx, hcall, hle⟩

/-- However late a punctual wait ends, it is by the least time that requests wait. -/
theorem Punctual.stop_le (h : e.Punctual d now) :
    e.stop ≤ max now (d.expiry + Http.leastTimeout) + Clock.overshoot := by
  have hleast : (0 : Int) < Http.leastTimeout := by decide
  rcases h with hle | ⟨x, -, ⟨-, hbefore, -⟩, hle⟩
  · omega
  · omega

/-- A wait against a child that is punctual for it is punctual for its parent. -/
theorem Punctual.of_child {child : Deadline} (h : e.Punctual child now)
    (hchild : child.expiry = (d.child now).expiry) (hnow : ∀ x ∈ e.trace, now ≤ x.time) :
    e.Punctual d now := by
  have hle : (d.child now).expiry ≤ max now d.expiry := d.expiry_child_le
  rcases h with hstop | ⟨x, hx, ⟨hrequest, hbefore, hlate⟩, hstop⟩
  · exact .inl (by omega)
  · -- A child that has not expired yet expires with its parent.
    have hx' := hnow x hx
    have hexpiry : (d.child now).expiry = d.expiry := d.expiry_child_eq (by omega)
    exact .inr ⟨x, hx, ⟨hrequest, by omega, by omega⟩, hstop⟩

end Ending

/-! ### The kinds -/

/-- A delay is punctual. -/
theorem Delay.wait_punctual (millis : Nat) (d : Deadline) (now : Int) :
    (Delay.wait millis d now).Punctual d now := by
  unfold Delay.wait
  simp only
  refine Ending.Punctual.after ?_ _
  -- Overlong, cut, ended too late, or slept in full.
  split
  · exact Ending.punctual_of_stop_le (Int.le_max_left _ _)
  · have hs := d.sleep_le now ‹Int›
    split
    · exact Ending.punctual_of_stop_le hs
    · split
      · exact Ending.punctual_of_stop_le hs
      · exact Ending.punctual_of_stop_le hs

/-- A wait for the log is punctual. -/
theorem Log.wait_punctual (scene : Scene) (m : LogMessage) (d : Deadline) (now : Int) :
    (Log.wait scene m d now).Punctual d now := by
  have hg := d.givesUp_le now
  unfold Log.wait
  simp only
  refine Ending.Punctual.after ?_ _
  split
  · exact Ending.punctual_of_stop_le (Int.le_max_left _ _)
  · split
    · split
      · -- What the stream tells counts only before the wait gives up.
        rename_i t f _ ht
        have hstop : t ≤ max now d.expiry + Clock.overshoot := by omega
        exact .inl hstop
      · exact .inl hg
    · exact .inl hg

/-- A wait for the healthcheck is punctual. -/
theorem Health.wait_punctual (scene : Scene) (d : Deadline) (now : Int) :
    (Health.wait scene d now).Punctual d now := by
  suffices hstop : (Health.wait scene d now).stop ≤ max now (d.expiry + Clock.overshoot) from
    Ending.punctual_of_stop_le hstop
  -- The induction is on the questions. The last one is asked when a sleep has ended.
  fun_induction Health.wait scene d now with
  | case1 now asked e => exact Int.le_max_left _ _
  | case2 now asked => exact Int.le_max_left _ _
  | case3 now asked status hstatus ih =>
    simp only [asked, Ending.after]
    split
    · exact Int.le_max_left _ _
    · split
      · exact Int.le_max_left _ _
      · rename_i hexp
        split
        · rename_i hnext
          have hlater := ih hexp hnext
          have hsleep := d.sleep_le now (Clock.ofSeconds scene.settings.healthPollInterval)
          omega
        · exact Int.le_max_left _ _

namespace Http

/-- A request is over when it has waited for as long as it may, but for the overshoot. -/
theorem meet_le (p : HttpProbe) (reply : World.Reply) {timeout : Int} (now : Int)
    (h : 0 < timeout) : (meet p reply timeout now).1 ≤ now + timeout + Clock.overshoot := by
  have ho := Clock.overshoot_pos
  unfold meet
  -- An answer, a failure to answer, or a fault; each is cut at the timeout.
  split
  · rename_i status body delay
    unfold Clock.after
    split
    · exact Int.le_refl _
    · simp only
      split <;> omega
  · simp only
    omega
  · simp only
    omega

/-- A request waits for what remains of the deadline at most, or for the least time. -/
theorem timeout_le (s : Settings) {d : Deadline} {now : Int} (h : ¬ d.isExpired now = true) :
    0 < timeout s d now ∧
      (now + timeout s d now ≤ d.expiry ∨
        timeout s d now = leastTimeout ∧ d.expiry < now + leastTimeout) := by
  have hleast : (0 : Int) < leastTimeout := by decide
  have hleft := Deadline.remaining_eq h
  unfold timeout
  omega

section
variable {scene : Scene} {p : HttpProbe} {url : String} {d : Deadline} {now met : Int}

/-- What follows a request is punctual if it ends by the deadline or with the request. -/
theorem punctual_of_request {r : World.Request} {e : Ending} (hnow : now < d.expiry)
    (hmet : met ≤ now + r.timeout + Clock.overshoot)
    (htimeout : now + r.timeout ≤ d.expiry ∨
      r.timeout = leastTimeout ∧ d.expiry < now + leastTimeout)
    (he : e.stop ≤ max met (d.expiry + Clock.overshoot)) :
    (Ending.after now (.request r) e).Punctual d now := by
  have hstop : (Ending.after now (.request r) e).stop = e.stop := rfl
  rcases htimeout with hle | ⟨hleast, hlate⟩
  · exact .inl (by omega)
  · by_cases hend : e.stop ≤ d.expiry + Clock.overshoot
    · exact .inl (by omega)
    · -- The request was a last call, and what follows it ended with it.
      refine .inr ⟨_, List.mem_cons_self, ⟨⟨r, rfl, hleast⟩, hnow, hlate⟩, ?_⟩
      simp only
      omega

/-- A poll is punctual. -/
theorem poll_punctual : (poll scene p url d now).Punctual d now := by
  fun_induction poll scene p url d now with
  | case1 now hexp => exact Ending.punctual_of_stop_le (Int.le_max_left _ _)
  | case2 now hexp limit met ih =>
    have hlt := Deadline.lt_expiry_of_not_expired hexp
    obtain ⟨hpos, htimeout⟩ := timeout_le scene.settings hexp
    have hbegin : now ≤ met.1 := le_meet p _ limit now
    have hmet : met.1 ≤ now + limit + Clock.overshoot := meet_le p _ now hpos
    have hends : ∀ e : Ending, e.stop ≤ max met.1 (d.expiry + Clock.overshoot) →
        (Ending.after now (.request ⟨p.method, url, p.headers, limit, p.verifyTls⟩) e).Punctual
          d now :=
      fun e => punctual_of_request hlt hmet htimeout
    split
    · exact hends _ (Int.le_max_left _ _)
    · exact hends _ (Int.le_max_left _ _)
    · have hsleep := d.sleep_le met.1 (interval p scene.settings)
      simp only
      split
      · rename_i hnext
        by_cases hlast : d.isExpired (d.sleep met.1 (interval p scene.settings)) = true
        · -- Nothing more is asked after the sleep.
          rw [poll_of_isExpired hlast]
          exact hends _ hsleep
        · have hnext' := Deadline.lt_expiry_of_not_expired hlast
          exact ((ih hnext).earlier (by omega)).after _
      · exact hends _ (Int.le_trans hbegin (Int.le_max_left _ _))

/-- A wait for an endpoint is punctual. -/
theorem wait_punctual (scene : Scene) (p : HttpProbe) (d : Deadline) (now : Int) :
    (wait scene p d now).Punctual d now := by
  unfold wait
  split
  · exact Ending.punctual_of_stop_le (Int.le_max_left _ _)
  · exact poll_punctual

end

end Http

/-! ### Groups -/

namespace Group

/-- A group ends at once or with one of its members. -/
theorem exists_lastStop (now : Int) (members : List Ending) :
    lastStop now members = now ∨ ∃ e ∈ members, e.stop = lastStop now members := by
  -- By the members: the last end so far takes the place of the start.
  induction members generalizing now with
  | nil => exact .inl rfl
  | cons e rest ih =>
    have hstep : lastStop now (e :: rest) = lastStop (max now e.stop) rest := rfl
    rw [hstep]
    rcases ih (max now e.stop) with hmax | ⟨f, hf, hstop⟩
    · rw [hmax]
      by_cases he : e.stop ≤ now
      · exact .inl (Int.max_eq_left he)
      · exact .inr ⟨e, List.mem_cons_self, by omega⟩
    · exact .inr ⟨f, List.mem_cons_of_mem e hf, hstop⟩

/-- A group is punctual if its members are. -/
theorem join_punctual {d d' : Deadline} {now : Int} {members : List Ending}
    (h : ∀ e ∈ members, e.Punctual d now) : (join d' now members).Punctual d now := by
  have hjoin : (join d' now members).stop = lastStop now members := rfl
  rcases exists_lastStop now members with hnow | ⟨e, he, hstop⟩
  · exact Ending.punctual_of_stop_le (by omega)
  · rcases h e he with hle | ⟨x, hx, hcall, hle⟩
    · exact .inl (by omega)
    · exact .inr ⟨x, List.mem_flatMap.mpr ⟨e, he, hx⟩, hcall, by omega⟩

/-- A group is punctual if its members are. -/
theorem wait_punctual {id : String} {members : List (Deadline → Int → Ending)}
    (hasks : ∀ m ∈ members, ∀ d now, (m d now).Asks id now)
    (h : ∀ m ∈ members, ∀ d now, (m d now).Punctual d now) (d : Deadline) (now : Int) :
    (wait members d now).Punctual d now := by
  unfold wait
  simp only
  -- The child expires when it does whether it is cancelled or not.
  split
  all_goals
    refine join_punctual fun e he => ?_
    obtain ⟨m, hm, rfl⟩ := List.mem_map.mp he
    exact (h m hm _ now).of_child rfl fun x hx => ((hasks m hm _ now).notes x hx).1

end Group

/-- So are conditions that are waited for together. -/
theorem waitForAll_punctual {id : String} {members : List (Deadline → Int → Ending)}
    (hasks : ∀ m ∈ members, ∀ d now, (m d now).Asks id now)
    (h : ∀ m ∈ members, ∀ d now, (m d now).Punctual d now) (d : Deadline) (now : Int) :
    (waitForAll members d now).Punctual d now := by
  unfold waitForAll
  split
  · exact Ending.punctual_of_stop_le (Int.le_max_left _ _)
  · exact h _ (List.mem_singleton.mpr rfl) d now
  · exact Group.wait_punctual hasks h d now

mutual

/-- The wait for a condition is punctual. -/
theorem wait_punctual (scene : Scene) (c : Condition) (d : Deadline) (now : Int) :
    (wait scene c d now).Punctual d now := by
  have hrefused : ∀ f, (Ending.failed now f).Punctual d now :=
    fun _ => Ending.punctual_of_stop_le (Int.le_max_left _ _)
  -- By the condition; what cannot be described ends at once.
  cases c with
  | log m => exact Log.wait_punctual scene m d now
  | http p => exact described_cases (fun _ => Http.wait_punctual scene p d now) fun _ => hrefused _
  | delay millis =>
    exact described_cases (fun _ => Delay.wait_punctual millis d now) fun _ => hrefused _
  | healthcheck => exact Health.wait_punctual scene d now
  | all members =>
    exact described_cases (fun _ => waitForAll_punctual (waits_ask scene members)
      (waits_punctual scene members) d now) fun _ => hrefused _
  | foreign label => exact hrefused _

/-- All of several conditions are punctual. -/
theorem waits_punctual (scene : Scene) (cs : List Condition) :
    ∀ m ∈ waits scene cs, ∀ d now, (m d now).Punctual d now := by
  cases cs with
  | nil => intro m hm; simp [waits] at hm
  | cons c rest =>
    intro m hm
    simp only [waits, List.mem_cons] at hm
    rcases hm with rfl | hm
    · exact wait_punctual scene c
    · exact waits_punctual scene rest m hm

end

/-! ### Waits that go on -/

/-- Whether time is to go by between two questions of a leaf. -/
def HasPositiveInterval (settings : Settings) : Condition → Prop
  | .healthcheck => 0 < Clock.ofSeconds settings.healthPollInterval
  | .http p => 0 < Http.interval p settings
  | _ => True

/-- A leaf that asks without end at one moment has no positive interval. -/
theorem Scene.Refuses.not_hasPositiveInterval {scene : Scene} {c : Condition}
    (h : scene.Refuses c (.defect .stalled)) : ¬ HasPositiveInterval scene.settings c := by
  unfold Scene.Refuses at h
  split at h
  case isFalse => cases h
  -- Only conditions that ask again and again can stall.
  cases c with
  | log m => exact h.elim
  | http p =>
    rcases h with h | ⟨-, h⟩
    · unfold Container.endpoint Container.resolve at h
      split at h <;> cases h
    · exact h
  | delay millis =>
    change Delay.lengthOf millis = .error (.defect .stalled) at h
    unfold Delay.lengthOf at h
    split at h <;> cases h
  | healthcheck => exact h.2
  | all members => exact h.elim
  | foreign label => cases h

/-- What a group ends with is the fault of a member, or the failure to be ready. -/
theorem Group.fault_of_settle {d : Deadline} {members : List Ending} {f : Fault}
    (h : settle d members = some f) :
    (∃ e ∈ members, e.fault = some f) ∨
      ∃ unmet reason, f = .failure (.notReady unmet (some d.total) reason) := by
  unfold settle at h
  simp only at h
  -- Foreign, fatal, or unmet.
  split at h
  · rename_i e he
    exact .inl ⟨e, List.mem_mergeSort.mp (List.mem_of_find?_eq_some he), h⟩
  · split at h
    · rename_i e he
      exact .inl ⟨e, List.mem_mergeSort.mp (List.mem_of_find?_eq_some he), h⟩
    · split at h
      · cases h
      · cases h
        exact .inr ⟨_, _, rfl⟩

/-- A group fails by the fault of a member, or with what is unmet. -/
theorem Group.fault_of_wait {members : List (Deadline → Int → Ending)} {d : Deadline} {now : Int}
    {f : Fault} (h : (wait members d now).fault = some f) :
    (∃ m ∈ members, ∃ d', (m d' now).fault = some f) ∨
      ∃ unmet reason, f = .failure (.notReady unmet (some d.total) reason) := by
  unfold wait at h
  simp only at h
  split at h
  all_goals
    refine (fault_of_settle h).imp_left ?_
    rintro ⟨e, he, hf⟩
    obtain ⟨m, hm, rfl⟩ := List.mem_map.mp he
    exact ⟨m, hm, _, hf⟩

section
variable {P : Fault → Prop} {scene : Scene} {now : Int}

/-- What waits together for several conditions raises what they raise, or the failure to be ready.
-/
theorem waitForAll_raises {members : List (Deadline → Int → Ending)}
    (hready : ∀ unmet timeout reason, P (.failure (.notReady unmet timeout reason)))
    (h : ∀ m ∈ members, ∀ d f, (m d now).fault = some f → P f) :
    ∀ d f, (waitForAll members d now).fault = some f → P f := by
  intro d f hf
  unfold waitForAll at hf
  split at hf
  · cases hf
  · exact h _ (List.mem_singleton.mpr rfl) d f hf
  · rcases Group.fault_of_wait hf with ⟨m, hm, d', hf⟩ | ⟨unmet, reason, rfl⟩
    · exact h m hm d' f hf
    · exact hready _ _ _

mutual

/-- A condition raises what its leaves raise, or the failure to be ready. -/
theorem raises_of_leaves
    (hready : ∀ unmet timeout reason, P (.failure (.notReady unmet timeout reason))) (c : Condition)
    (hleaf : ∀ l ∈ c.leaves, ∀ d f, (wait scene l d now).fault = some f → P f) :
    ∀ d f, (wait scene c d now).fault = some f → P f := by
  -- By the condition: a group raises what its members do, or reports.
  cases c with
  | all members =>
    cases hwords : Condition.areDescribable members with
    | false =>
      rw [Condition.leaves_all_of_not_areDescribable hwords] at hleaf
      exact hleaf _ (List.mem_singleton.mpr rfl)
    | true =>
      rw [Condition.leaves_all hwords] at hleaf
      intro d f hf
      rw [wait_all hwords] at hf
      exact waitForAll_raises hready (all_raise_of_leaves hready members hleaf) d f hf
  | _ => exact hleaf _ (List.mem_singleton.mpr rfl)

/-- The same of several conditions. -/
theorem all_raise_of_leaves
    (hready : ∀ unmet timeout reason, P (.failure (.notReady unmet timeout reason)))
    (cs : List Condition)
    (hleaf : ∀ l ∈ Condition.leavesAll cs, ∀ d f, (wait scene l d now).fault = some f → P f) :
    ∀ m ∈ waits scene cs, ∀ d f, (m d now).fault = some f → P f := by
  cases cs with
  | nil => intro m hm; simp [waits] at hm
  | cons c rest =>
    simp only [Condition.leavesAll, List.mem_append] at hleaf
    intro m hm
    simp only [waits, List.mem_cons] at hm
    -- The first condition, or one of the rest.
    rcases hm with rfl | hm
    · exact raises_of_leaves hready c fun l hl => hleaf l (.inl hl)
    · exact all_raise_of_leaves hready rest (fun l hl => hleaf l (.inr hl)) m hm

end

end

/-- No leaf whose interval is positive polls without end: if it ends with that defect, the world has
raised it. -/
theorem stalled_of_leaf {scene : Scene} {d : Deadline} {now : Int} {l : Condition} (hl : l.IsLeaf)
    (hpos : HasPositiveInterval scene.settings l) {f : Fault}
    (h : (wait scene l d now).fault = some f) (hf : f = .defect .stalled) : scene.Raises f := by
  subst hf
  rcases fault_of_leaf hl h with hraises | hrefuses | ⟨_, hnames, _⟩
  · exact hraises
  · exact absurd hpos hrefuses.not_hasPositiveInterval
  · cases hnames

/-- Nor does a wait for a condition with such leaves, or for several. -/
theorem stalled_of_wait {scene : Scene} {d : Deadline} {now : Int} :
    (∀ c : Condition, (∀ l ∈ c.leaves, HasPositiveInterval scene.settings l) →
      (wait scene c d now).fault = some (.defect .stalled) → scene.Raises (.defect .stalled)) ∧
    (∀ cs : List Condition, (∀ l ∈ Condition.leavesAll cs, HasPositiveInterval scene.settings l) →
      (waitAll scene cs d now).fault = some (.defect .stalled) →
        scene.Raises (.defect .stalled)) := by
  refine ⟨fun c hpos h => ?_, fun cs hpos h => ?_⟩
  · exact raises_of_leaves (P := fun f => f = .defect .stalled → scene.Raises f) nofun c
      (fun l hl _ _ => stalled_of_leaf (Condition.isLeaf_of_mem_leaves hl) (hpos l hl)) d _ h rfl
  · exact waitForAll_raises (P := fun f => f = .defect .stalled → scene.Raises f) nofun
      (all_raise_of_leaves (by nofun) cs fun l hl _ _ =>
        stalled_of_leaf (Condition.isLeaf_of_mem_leavesAll hl) (hpos l hl)) d _ h rfl

/-! ### Both together -/

/-- A wait that started now came to an end in time. -/
structure Ending.InTime (scene : Scene) (d : Deadline) (now : Int) (e : Ending) : Prop where
  le_stop : now ≤ e.stop
  stop_le : e.stop ≤ max now d.expiry + Http.leastTimeout + Clock.overshoot
  /-- If it ended beyond the deadline, the least time that a request waits made it. -/
  late : max now d.expiry + Clock.overshoot < e.stop →
    ∃ x ∈ e.trace, IsLastCall d x ∧ e.stop ≤ x.time + Http.leastTimeout + Clock.overshoot
  /-- It did not poll without end. A member of a group is a wait against a deadline of its own, so
  this is said of each member as well, even where the group ends with the fault of another. -/
  ends : e.fault = some (.defect .stalled) → scene.Raises (.defect .stalled)

/-- Every wait ends in time, whatever it waits for and whatever it meets. -/
theorem waits_end_in_time (scene : Scene) (d : Deadline) (now : Int) :
    (∀ c : Condition, (∀ l ∈ c.leaves, HasPositiveInterval scene.settings l) →
      (wait scene c d now).InTime scene d now) ∧
    (∀ cs : List Condition, (∀ l ∈ Condition.leavesAll cs, HasPositiveInterval scene.settings l) →
      (waitAll scene cs d now).InTime scene d now) := by
  -- What is punctual and does not stall is in time.
  have hin : ∀ e : Ending, now ≤ e.stop → e.Punctual d now →
      (e.fault = some (.defect .stalled) → scene.Raises (.defect .stalled)) →
      e.InTime scene d now := by
    intro e hle hpunctual hends
    have hstop := hpunctual.stop_le
    have hleast : (0 : Int) < Http.leastTimeout := by decide
    exact ⟨hle, by omega, fun hlate => hpunctual.resolve_left (by omega), hends⟩
  refine ⟨fun c hpos => ?_, fun cs hpos => ?_⟩
  · exact hin _ (wait_asks scene c d now).le_stop (wait_punctual scene c d now)
      (stalled_of_wait.1 c hpos)
  · exact hin _ (waitAll_asks scene cs d now).le_stop
      (waitForAll_punctual (waits_ask scene cs) (waits_punctual scene cs) d now)
      (stalled_of_wait.2 cs hpos)

/-- A container that answers no request, is not healthy and logs nothing. -/
def unresponsive : Scene where
  container := ⟨"c1", "localhost", [("80/tcp", 40000)], none⟩
  box := { World.Box.quiet with health := [⟨0, .ok (some "starting")⟩] }
  world := { World.quiet with
    http := [("http://localhost:40000/", [⟨0, .answer 200 "" (3600 * Clock.second)⟩])] }
  settings := .usual

/-- What is waited for in vain. -/
def hopes : List Condition :=
  [.http (.get "/" (.tcp 80)), .healthcheck, .all [.onStdout "ready"], .delay 60000]

/-- A deadline of five milliseconds. The one request that is made before it goes beyond it. -/
def hurried : Deadline := ⟨Settings.secondsOf 1, 5 * Clock.millisecond, none, none⟩

/-- A container that never answers, and a deadline of five milliseconds. -/
theorem waits_end_in_time_of_unresponsive :
    (∀ l ∈ Condition.leavesAll hopes, HasPositiveInterval unresponsive.settings l) ∧
      (waitAll unresponsive hopes hurried 0).InTime unresponsive hurried 0 ∧
      (waitAll unresponsive hopes hurried 0).stop = Http.leastTimeout + Clock.overshoot := by
  have hpos : ∀ l ∈ Condition.leavesAll hopes, HasPositiveInterval unresponsive.settings l := by
    intro l hl
    have hcases : l ∈ [.http (.get "/" (.tcp 80)), .healthcheck, .onStdout "ready", .delay 60000] :=
      hl
    simp only [List.mem_cons, List.not_mem_nil, or_false] at hcases
    -- Two of the four conditions ask again and again.
    rcases hcases with rfl | rfl | rfl | rfl
    · show 0 < Http.interval (.get "/" (.tcp 80)) .usual
      decide
    · show 0 < Clock.ofSeconds Settings.usual.healthPollInterval
      decide
    · trivial
    · trivial
  exact ⟨hpos, (waits_end_in_time unresponsive hurried 0).2 hopes hpos, by decide +kernel⟩

end Readiness
end Slipway
