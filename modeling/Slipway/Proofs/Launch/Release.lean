import Slipway.Launch.Launcher
import Slipway.Proofs.Lifecycle.Removal

/-!
# `Slipway.Proofs.Launch.Release`: what becomes of the containers of a launch

A launcher removes the containers that it holds when it stops running, one after the other, and it
stops running once. `shutDown_eq_ok` states that. So it matters when the first signal arrives: while
services are still starting there is nothing to remove yet, and the containers that become ready
later are held to the end. `start_removes` gives the removals of a launch exactly.

A removal is announced first, and one whose announcement the console refuses does not take place
(`announced`). Any other notice that is refused ends the launch, so where one comes to its end all
of them were shown (`tell_eq_ok`). -/

set_option autoImplicit false

namespace Slipway.Launch

open Slipway.World (Act Note Stage Trace)
open Slipway.Lifecycle (Finished IsReady)

/-! ### Removals -/

/-- The removal of a container at a moment, as it is noted. -/
def removalAt (now : Int) (h : Held) : World.Entry := ⟨now, .event h.id .remove⟩

/-- Removals remove the containers they are of. -/
theorem removes_map_removalAt (now : Int) (held : List Held) (id : String) :
    World.Trace.Removes id (held.map (removalAt now)) ↔ ∃ h ∈ held, h.id = id := by
  constructor
  · rintro ⟨x, hx, hnote⟩
    obtain ⟨h, hmem, rfl⟩ := List.mem_map.mp hx
    cases hnote
    exact ⟨h, hmem, rfl⟩
  · rintro ⟨h, hmem, rfl⟩
    exact ⟨_, List.mem_map_of_mem hmem, rfl⟩

/-- A removal notes itself, whatever it comes to. -/
theorem Held.remove_snd (h : Held) (now : Int) : (h.remove now).2 = [removalAt now h] := by
  show ((Act.failIf h.stage.box.removeFault) _).2.trace = _
  cases h.stage.box.removeFault <;> rfl

/-- The containers whose removal is announced on a console: for the others it does not come to one.
-/
def announced (console : Console) (held : List Held) : List Held :=
  held.filter fun h => console.Shows h.announcement

/-- A console that shows all announcements leaves none out. -/
theorem announced_of_shows {console : Console} {held : List Held}
    (h : ∀ x ∈ held, console.Shows x.announcement) : announced console held = held :=
  List.filter_eq_self.mpr fun x hx => decide_eq_true (h x hx)

namespace Launcher

variable {l l' : Launcher}

/-! ### Notices -/

section
variable {α : Type} {n : Notice} {next : Launcher → Except Fault α × Launcher}

/-- What is shown does not hold up the work. -/
theorem tell_of_shows (h : l.console.Shows n) : l.tell n next = next (l.showing n) := by
  have hnone : l.console.refusal? n = none := h
  rw [tell, hnone]

/-- What is refused ends it, and leaves the launcher as it is. -/
theorem tell_of_refused {e : Fault} (h : l.console.refusal? n = some e) :
    l.tell n next = (.error e, l) := by
  rw [tell, h]

/-- Work that came to its end after a notice has shown it. -/
theorem tell_eq_ok {a : α} :
    l.tell n next = (.ok a, l') ↔ l.console.Shows n ∧ next (l.showing n) = (.ok a, l') := by
  cases h : l.console.refusal? n with
  | none =>
    rw [tell_of_shows h]
    exact ⟨fun hnext => ⟨h, hnext⟩, And.right⟩
  | some e =>
    rw [tell_of_refused h]
    refine ⟨fun hok => (nomatch hok), fun hok => ?_⟩
    exact nomatch h.symm.trans hok.1

end

/-! ### Removals -/

/-- A launcher that has only shown and noted something since. -/
structure Stays (l l' : Launcher) : Prop where
  now : l'.now = l.now
  console : l'.console = l.console
  isRunning : l'.isRunning = l.isRunning

/-- A launcher stays as it is. -/
theorem Stays.refl (l : Launcher) : Stays l l := ⟨rfl, rfl, rfl⟩

/-- Staying twice is staying. -/
theorem Stays.trans {l₁ : Launcher} (h : Stays l l₁) (h' : Stays l₁ l') : Stays l l' :=
  ⟨h'.now.trans h.now, h'.console.trans h.console, h'.isRunning.trans h.isRunning⟩

/-- A notice changes nothing else. -/
theorem stays_showing (l : Launcher) (n : Notice) : Stays l (l.showing n) := ⟨rfl, rfl, rfl⟩

/-- Removing one container notes its removal, if that could be announced, and is all that is done.
-/
theorem release_snd (l : Launcher) (h : Held) :
    (l.release h).2.trace = l.trace ++ (announced l.console [h]).map (removalAt l.now) ∧
      Stays l (l.release h).2 := by
  rw [release]
  -- A container whose announcement is refused is not removed.
  cases hrefusal : l.console.refusal? h.announcement with
  | none =>
    have hannounced : announced l.console [h] = [h] :=
      announced_of_shows fun x hx => List.mem_singleton.mp hx ▸ hrefusal
    rw [tell_of_shows hrefusal, hannounced]
    refine ⟨?_, rfl, rfl, rfl⟩
    exact congrArg (l.trace ++ ·) (h.remove_snd l.now)
  | some e =>
    have hannounced : announced l.console [h] = [] := by
      simp [announced, Console.Shows, hrefusal]
    rw [tell_of_refused hrefusal, hannounced]
    exact ⟨(List.append_nil _).symm, .refl l⟩

/-- Removing containers notes one removal for each that is announced, in order. -/
theorem releaseAll_eq_ok {held : List Held} (h : releaseAll held l = (.ok (), l')) :
    l'.trace = l.trace ++ (announced l.console held).map (removalAt l.now) ∧ Stays l l' := by
  induction held generalizing l with
  | nil =>
    cases h
    exact ⟨(List.append_nil _).symm, .refl _⟩
  | cons first rest ih =>
    obtain ⟨htrace, hstays⟩ := l.release_snd first
    -- Whether the removal failed or not, the rest is removed from here on.
    have hrest : ∀ l₁ : Launcher, l₁.trace = (l.release first).2.trace → Stays l l₁ →
        releaseAll rest l₁ = (.ok (), l') →
        l'.trace = l.trace ++ (announced l.console (first :: rest)).map (removalAt l.now) ∧
          Stays l l' := by
      intro l₁ ht hl₁ hall
      obtain ⟨htrace', hstays'⟩ := ih hall
      have hsplit : announced l.console (first :: rest) =
          announced l.console [first] ++ announced l.console rest := List.filter_append [first] rest
      rw [htrace', ht, htrace, hl₁.now, hl₁.console, hsplit, List.map_append, List.append_assoc]
      exact ⟨rfl, hl₁.trans hstays'⟩
    rw [releaseAll] at h
    split at h
    · rename_i l₁ hrel
      rw [hrel] at hrest hstays
      exact hrest l₁ rfl hstays h
    · rename_i e l₁ hrel
      rw [hrel] at hrest hstays
      split at h
      · cases h
      · exact hrest (l₁.showing (.notRemoved e)) rfl (hstays.trans (l₁.stays_showing _))
          (tell_eq_ok.mp h).2

/-- A cleaning that comes to its end has removed every container that was announced. -/
theorem cleanUp_eq_ok (h : l.cleanUp = (.ok (), l')) :
    l'.trace = l.trace ++ (announced l.console l.held).map (removalAt l.now) ∧ l'.held = [] ∧
      Stays l l' := by
  unfold cleanUp at h
  split at h
  · rename_i l₁ hrel
    obtain ⟨htrace, hstays⟩ :=
      releaseAll_eq_ok (show releaseAll l.held l = (.ok (), l₁) from hrel)
    obtain ⟨-, h⟩ := tell_eq_ok.mp h
    cases h
    exact ⟨htrace, rfl, hstays.now, hstays.console, hstays.isRunning⟩
  · cases h

/-- A launcher that runs removes what it holds when it stops, and then holds nothing. -/
theorem shutDown_eq_ok {signal : Option Nat} (hrun : l.isRunning = true)
    (h : l.shutDown signal = (.ok (), l')) :
    l'.trace = l.trace ++ (announced l.console l.held).map (removalAt l.now) ∧ l'.held = [] ∧
      l'.now = l.now ∧ l'.console = l.console ∧ l'.isRunning = false := by
  -- A signal is only told of first.
  have hstop : ∀ l₁ : Launcher, l₁.trace = l.trace → l₁.held = l.held → Stays l l₁ →
      { l₁ with isRunning := false }.cleanUp = (.ok (), l') →
      l'.trace = l.trace ++ (announced l.console l.held).map (removalAt l.now) ∧ l'.held = [] ∧
        l'.now = l.now ∧ l'.console = l.console ∧ l'.isRunning = false := by
    intro l₁ htrace hheld hstays hclean
    obtain ⟨htrace', hheld', hstays'⟩ := cleanUp_eq_ok hclean
    rw [← htrace, ← hheld, ← hstays.now, ← hstays.console]
    exact ⟨htrace', hheld', hstays'.now, hstays'.console, hstays'.isRunning⟩
  simp only [shutDown, hrun, if_true] at h
  cases signal with
  | none => exact hstop l rfl rfl (.refl l) h
  | some n => exact hstop (l.showing (.signalled n)) rfl rfl (l.stays_showing _) (tell_eq_ok.mp h).2

/-- A launcher that has stopped does nothing more. -/
theorem shutDown_of_not_running (signal : Option Nat) (hrun : l.isRunning = false) :
    l.shutDown signal = (.ok (), l) := by
  simp [shutDown, hrun]

/-! ### Signals -/

/-- A launcher that does not run does nothing at signals. -/
theorem receive_of_not_running (signals : List Signal) (hrun : l.isRunning = false) :
    ∃ l', receive signals l = (.ok (), l') ∧ l'.trace = l.trace ∧ l'.held = l.held ∧
      l'.console = l.console ∧ l'.isRunning = false := by
  induction signals generalizing l with
  | nil => exact ⟨l, rfl, rfl, rfl, rfl, hrun⟩
  | cons s rest ih =>
    have hnothing := shutDown_of_not_running (l := { l with now := max l.now s.time })
      (some s.number) hrun
    obtain ⟨l', hreceive, hfields⟩ := ih (l := { l with now := max l.now s.time }) hrun
    refine ⟨l', ?_, hfields⟩
    rw [receive, hnothing]
    exact hreceive

/-- A launcher that runs stops at the first signal. -/
theorem receive_eq_ok {first : Signal} {rest : List Signal} (hrun : l.isRunning = true)
    (h : receive (first :: rest) l = (.ok (), l')) :
    l'.trace = l.trace ++ (announced l.console l.held).map (removalAt (max l.now first.time)) ∧
      l'.held = [] ∧ l'.console = l.console ∧ l'.isRunning = false := by
  rw [receive] at h
  split at h
  · rename_i l₁ hshut
    have hshut : shutDown { l with now := max l.now first.time } (some first.number) =
        (.ok (), l₁) := hshut
    obtain ⟨htrace, hheld, -, hconsole, hrun₁⟩ := shutDown_eq_ok (by exact hrun) hshut
    -- All further signals find a launcher that does not run any more.
    obtain ⟨l₂, hreceive, htrace', hheld', hconsole', hrun₂⟩ := receive_of_not_running rest hrun₁
    rw [hreceive] at h
    cases h
    exact ⟨htrace'.trans htrace, hheld'.trans hheld, hconsole'.trans hconsole, hrun₂⟩
  · cases h

/-- A launcher that holds nothing only stops running when a signal arrives. -/
theorem receive_of_held_eq_nil {signals : List Signal} (hheld : l.held = [])
    (h : receive signals l = (.ok (), l')) :
    l'.trace = l.trace ∧ l'.console = l.console ∧
      l'.isRunning = (l.isRunning && signals.isEmpty) := by
  -- A launcher that runs stops at the first signal, and then it holds nothing to remove.
  cases hrun : l.isRunning with
  | false =>
    obtain ⟨l₁, hreceive, htrace, -, hconsole, hrun₁⟩ := receive_of_not_running signals hrun
    rw [hreceive] at h
    cases h
    exact ⟨htrace, hconsole, hrun₁⟩
  | true =>
    cases signals with
    | nil =>
      cases h
      exact ⟨rfl, rfl, hrun⟩
    | cons first rest =>
      obtain ⟨htrace, -, hconsole, hrun'⟩ := receive_eq_ok hrun h
      rw [hheld] at htrace
      exact ⟨htrace.trans (List.append_nil _), hconsole, hrun'⟩

/-- The launcher looks around from time to time, not all the time. -/
theorem turn_pos : 0 < turn := by decide +kernel

/-- A look comes no earlier than what it is for. -/
theorem le_nextLook (now time : Int) : time ≤ nextLook now time := by
  have ht := turn_pos
  have hdm := Int.emod_add_mul_ediv (time - now + turn - 1) turn
  have hlt := Int.emod_lt_of_pos (time - now + turn - 1) ht
  have hmax : (time - now + turn - 1) / turn * turn ≤
      max 1 ((time - now + turn - 1) / turn) * turn :=
    Int.mul_le_mul_of_nonneg_right (Int.le_max_right _ _) (Int.le_of_lt ht)
  rw [Int.mul_comm] at hdm
  unfold nextLook
  omega

/-- A launcher that idles and comes to an end has removed what it held. -/
theorem idle_eq_ok {signals : List Signal} {code : Int} (hrun : l.isRunning = true)
    (h : idle signals l = (.ok code, l')) :
    ∃ moment, l'.trace = l.trace ++ (announced l.console l.held).map (removalAt moment) ∧
      l'.held = [] := by
  cases signals with
  | nil => simp [idle, hrun] at h
  | cons first rest =>
    -- The signal that is looked for has arrived by then.
    have hfilter : (first :: rest).filter (fun s => s.time ≤ nextLook l.now first.time) =
        first :: rest.filter (fun s => s.time ≤ nextLook l.now first.time) :=
      List.filter_cons_of_pos (by simpa using le_nextLook l.now first.time)
    simp only [idle, hrun, if_true, hfilter] at h
    split at h
    · rename_i l₁ hreceive
      have hreceive : receive _ l = (.ok (), l₁) := hreceive
      obtain ⟨htrace, hheld, -⟩ := receive_eq_ok hrun hreceive
      cases h
      exact ⟨_, htrace, hheld⟩
    · cases h

/-- A launcher that runs removes all that it holds before it ends. -/
theorem conclude_eq_ok {plan : Plan} {outcomes : List Outcome} {signals : List Signal} {code : Int}
    (hrun : l.isRunning = true) (h : conclude plan outcomes signals l = (.ok code, l')) :
    ∃ moment, l'.trace = l.trace ++ (announced l.console l.held).map (removalAt moment) ∧
      l'.held = [] := by
  obtain ⟨-, h⟩ := tell_eq_ok.mp h
  -- All are ready and a signal ends it, or one is not and the shutdown comes at once.
  split at h
  · exact idle_eq_ok (l := (l.showing (.services plan outcomes)).showing .allReady) hrun
      (tell_eq_ok.mp h).2
  · split at h
    · rename_i l₁ hshut
      have hshut : (l.showing (.services plan outcomes)).shutDown none = (.ok (), l₁) := hshut
      obtain ⟨htrace, hheld, -⟩ := shutDown_eq_ok (by exact hrun) hshut
      cases h
      exact ⟨_, htrace, hheld⟩
    · cases h

/-- A launcher that does not run any more removes nothing before it ends. -/
theorem conclude_of_not_running {plan : Plan} {outcomes : List Outcome} {signals : List Signal}
    {code : Int} (hrun : l.isRunning = false)
    (h : conclude plan outcomes signals l = (.ok code, l')) :
    l'.trace = l.trace ∧ l'.held = l.held := by
  have hshut := shutDown_of_not_running (l := l.showing (.services plan outcomes)) none hrun
  obtain ⟨-, h⟩ := tell_eq_ok.mp h
  -- Ready or not, a launcher that has stopped removes nothing.
  split at h
  · obtain ⟨-, h⟩ := tell_eq_ok.mp h
    unfold idle at h
    rw [if_neg (by simp [showing, hrun])] at h
    cases h
    exact ⟨rfl, rfl⟩
  · rw [hshut] at h
    cases h
    exact ⟨rfl, rfl⟩

/-! ### Launches -/

/-- What a launcher holds after starts are the containers that have become ready, in order. -/
theorem ids_ofRuns (settings : Settings) {specs : List Spec} {runs : List Finished}
    (hlength : runs.length = specs.length)
    (hcontainer : ∀ r ∈ runs, ∀ o, r.1 = .ok o → o.ok = true →
      ∃ c, o.container = some c ∧ r.2.id = some c.id) :
    ((Held.ofRuns settings specs runs).map Held.id).map some =
      (runs.filter fun r => decide (IsReady r)).map (·.2.id) := by
  -- By the specs and their runs: each run that is ready adds its container, and no other adds one.
  induction specs generalizing runs with
  | nil =>
    rw [List.length_eq_zero_iff.mp hlength]
    rfl
  | cons spec specs ih =>
    cases runs with
    | nil => cases hlength
    | cons r rest =>
      have hrest :=
        ih (Nat.succ.inj hlength) fun r' hr' => hcontainer r' (List.mem_cons_of_mem r hr')
      have hcons : Held.ofRuns settings (spec :: specs) (r :: rest) =
          (Held.ofFinished settings spec r).toList ++ Held.ofRuns settings specs rest := by
        unfold Held.ofRuns
        rw [List.zip_cons_cons, List.filterMap_cons]
        cases h : Held.ofFinished settings spec r <;> simp [h]
      rw [hcons, List.map_append, List.map_append, hrest, List.filter_cons]
      by_cases hready : IsReady r
      · obtain ⟨o, ho, hok⟩ := hready.exists_ok
        obtain ⟨c, hc, hid⟩ := hcontainer r List.mem_cons_self o ho hok
        simp [Held.ofFinished, Held.id, ho, hok, hc, hready, hid]
      · have hnone : Held.ofFinished settings spec r = none := by
          unfold Held.ofFinished
          cases ho : r.1 with
          | error e => rfl
          | ok o =>
            rw [Lifecycle.isReady_iff ho] at hready
            simp [hready]
        simp [hnone, hready]

/-- What is held after a launch are the containers of the ready runs. -/
theorem exists_mem_ofRuns {settings : Settings} {specs : List Spec} {runs : List Finished}
    (hlength : runs.length = specs.length) (haccounts : ∀ r ∈ runs, Lifecycle.Accounts r)
    (id : String) :
    (∃ h ∈ Held.ofRuns settings specs runs, h.id = id) ↔
      ∃ r ∈ runs, IsReady r ∧ r.2.id = some id := by
  have hids := ids_ofRuns settings hlength (by
    intro r hr o ho hok
    obtain ⟨c, hc, hid, -⟩ := (haccounts r hr).ready o ho (by simp [Outcome.phase, hok])
    exact ⟨c, hc, hid⟩)
  have hmem : (∃ h ∈ Held.ofRuns settings specs runs, h.id = id) ↔
      some id ∈ ((Held.ofRuns settings specs runs).map Held.id).map some := by simp
  rw [hmem, hids]
  simp [and_assoc]

/-- Whether a signal arrives while services are still starting. -/
def IsEarly (last : Int) (signals : List Signal) : Prop := ∃ s ∈ signals, s.time < last

instance (last : Int) (signals : List Signal) : Decidable (IsEarly last signals) :=
  inferInstanceAs (Decidable (∃ s ∈ signals, s.time < last))

/-- What a launch notes: what its services do, and then, unless a signal came too early, the removal
of all containers that became ready and whose removal is announced. -/
theorem launch_eq_ok {settings : Settings} {world : World} {plan : Plan} {specs : List Spec}
    {signals : List Signal} {code : Int} (hheld : l.held = []) (hrun : l.isRunning = true)
    (h : launch settings world plan specs signals l = (.ok code, l')) :
    let runs := Lifecycle.startEach settings world l.now specs none
    let held := Held.ofRuns settings specs runs
    ∃ moment cleanUp, l'.trace = l.trace ++ Lifecycle.traceOf runs ++ cleanUp ∧
      (IsEarly (Lifecycle.lastMoment l.now runs) signals → cleanUp = [] ∧ l'.held = held) ∧
      (¬ IsEarly (Lifecycle.lastMoment l.now runs) signals →
        cleanUp = (announced l.console held).map (removalAt moment) ∧ l'.held = []) := by
  intro runs held
  let last := Lifecycle.lastMoment l.now runs
  simp only [launch] at h
  split at h
  · cases h
  · rename_i l₁ hreceive
    have hreceive : receive (signals.filter fun s => decide (s.time < last)) l = (.ok (), l₁) :=
      hreceive
    -- The signals that arrive until the last start is over find a launcher that holds nothing. All
    -- they can do is stop it from running, and then it removes nothing later either.
    obtain ⟨htrace, hconsole, hrun₁⟩ := receive_of_held_eq_nil hheld hreceive
    have hearly : l₁.isRunning = true ↔ ¬ IsEarly last signals := by
      rw [hrun₁, hrun, Bool.true_and, List.isEmpty_iff, List.filter_eq_nil_iff]
      simp [IsEarly]
    split at h
    · cases h
    · by_cases hrunning : l₁.isRunning = true
      · obtain ⟨moment, htrace', hheld'⟩ := conclude_eq_ok (by exact hrunning) h
        refine ⟨moment, (announced l.console held).map (removalAt moment), ?_,
          fun he => absurd he (hearly.mp hrunning), fun _ => ⟨rfl, hheld'⟩⟩
        rw [htrace', htrace, hconsole]
      · obtain ⟨htrace', hheld'⟩ := conclude_of_not_running (by simpa using hrunning) h
        have he : IsEarly last signals := Classical.not_not.mp fun hne => hrunning (hearly.mpr hne)
        refine ⟨0, [], ?_, fun _ => ⟨rfl, hheld'⟩, fun hne => absurd he hne⟩
        rw [htrace', htrace, List.append_nil]

/-- A launch removes the containers that became ready and whose removal is announced, unless a
signal came too early. -/
theorem launch_removes {settings : Settings} {world : World} {plan : Plan} {specs : List Spec}
    {signals : List Signal} {code : Int} (hheld : l.held = []) (hrun : l.isRunning = true)
    (h : launch settings world plan specs signals l = (.ok code, l')) :
    let runs := Lifecycle.startEach settings world l.now specs none
    ∃ cleanUp, l'.trace = l.trace ++ Lifecycle.traceOf runs ++ cleanUp ∧
      ∀ id, World.Trace.Removes id cleanUp ↔ ¬ IsEarly (Lifecycle.lastMoment l.now runs) signals ∧
        ∃ h ∈ Held.ofRuns settings specs runs, h.id = id ∧ l.console.Shows h.announcement := by
  intro runs
  obtain ⟨moment, cleanUp, htrace, hearly, hlate⟩ := launch_eq_ok hheld hrun h
  refine ⟨cleanUp, htrace, fun id => ?_⟩
  -- A signal during the launch finds nothing to remove, and later nothing is removed.
  by_cases he : IsEarly (Lifecycle.lastMoment l.now runs) signals
  · rw [(hearly he).1]
    simp [World.Trace.Removes, he]
  · rw [(hlate he).1, removes_map_removalAt]
    constructor
    · rintro ⟨x, hx, hid⟩
      obtain ⟨hmem, hshown⟩ := List.mem_filter.mp hx
      exact ⟨he, x, hmem, hid, of_decide_eq_true hshown⟩
    · rintro ⟨-, x, hmem, hid, hshown⟩
      exact ⟨x, List.mem_filter.mpr ⟨hmem, decide_eq_true hshown⟩, hid⟩

/-- Which containers of a launch are removed. If no signal arrives while services are still
starting, all are in the end whose removal is announced. If one does, the containers that become
ready are not. -/
theorem start_removes {settings : Settings} (hset : settings.removeOnFailure = true) {world : World}
    {plan : Plan} {signals : List Signal} {code : Int} (hheld : l.held = [])
    (h : start settings world plan signals l = (.ok code, l')) :
    ∃ specs cleanUp, plan.build = .ok specs ∧
      let runs := Lifecycle.startEach settings world l.now specs none
      let held := Held.ofRuns settings specs runs
      let early := IsEarly (Lifecycle.lastMoment l.now runs) signals
      l'.trace = l.trace ++ Lifecycle.traceOf runs ++ cleanUp ∧
      (∀ id, (∃ h ∈ held, h.id = id) ↔ ∃ r ∈ runs, IsReady r ∧ r.2.id = some id) ∧
      (∀ id, cleanUp.Removes id ↔
        ¬ early ∧ ∃ h ∈ held, h.id = id ∧ l.console.Shows h.announcement) ∧
      ((∀ h ∈ held, l.console.Shows h.announcement) →
        ∀ r ∈ runs, ∀ id, r.2.trace.Creates id → id ≠ "" →
          ((r.2.trace.Removes id ∨ cleanUp.Removes id) ↔ ¬ early ∨ ¬ IsReady r)) := by
  obtain ⟨-, h⟩ := tell_eq_ok.mp h
  split at h
  · cases h
  · rename_i specs hbuild
    obtain ⟨cleanUp, htrace, hcleanUp⟩ := launch_removes (by exact hheld) rfl h
    let runs := Lifecycle.startEach settings world l.now specs none
    have hids : ∀ id, (∃ h ∈ Held.ofRuns settings specs runs, h.id = id) ↔
        ∃ r ∈ runs, IsReady r ∧ r.2.id = some id :=
      exists_mem_ofRuns Lifecycle.length_startEach (Lifecycle.startEach_accounts hset)
    refine ⟨specs, cleanUp, hbuild, htrace, hids, hcleanUp, fun hshown r hr id hcreates hne => ?_⟩
    have haccounts : Lifecycle.Accounts r := Lifecycle.startEach_accounts hset r hr
    have hid := (haccounts.created id).mp hcreates
    rw [haccounts.removes_iff hcreates, hcleanUp]
    -- A container that is not ready is removed by its own start, the others by the launcher.
    constructor
    · rintro (⟨-, hready⟩ | ⟨he, -⟩)
      · exact .inr hready
      · exact .inl he
    · intro hor
      by_cases hready : IsReady r
      · obtain ⟨x, hx, hxid⟩ := (hids id).mpr ⟨r, hr, hready, hid⟩
        exact .inr ⟨hor.resolve_right (not_not_intro hready), x, hx, hxid, hshown x hx⟩
      · exact .inl ⟨hne, hready⟩

/-- A plan of one service, which takes a while to become ready. -/
def slow : Spec := { Spec.ofImage "redis" "7.2" with waitFor := [.delay 50] }

/-- A signal comes while the only container starts, and the container stays. -/
theorem start_removes_of_signal_at_start :
    ∃ l' cleanUp,
      start .usual .quiet ⟨[⟨none, [], some slow⟩]⟩ [⟨10 * Clock.millisecond, 15⟩] fresh =
        (.ok 0, l') ∧
      l'.trace = fresh.trace ++
        Lifecycle.traceOf (Lifecycle.startEach .usual .quiet fresh.now [slow] none) ++ cleanUp ∧
      (∃ r ∈ Lifecycle.startEach .usual .quiet fresh.now [slow] none, IsReady r) ∧
      ∀ id, ¬ cleanUp.Removes id := by
  have hcode : (start .usual .quiet ⟨[⟨none, [], some slow⟩]⟩ [⟨10 * Clock.millisecond, 15⟩]
      fresh).1.toOption = some 0 := by decide +kernel
  have hready : ∃ r ∈ Lifecycle.startEach .usual .quiet fresh.now [slow] none, IsReady r := by
    decide +kernel
  have hearly : IsEarly (Lifecycle.lastMoment fresh.now
      (Lifecycle.startEach .usual .quiet fresh.now [slow] none))
      [⟨10 * Clock.millisecond, 15⟩] := by decide +kernel
  cases hstart : start .usual .quiet ⟨[⟨none, [], some slow⟩]⟩ [⟨10 * Clock.millisecond, 15⟩]
      fresh with
  | mk r l' =>
    rw [hstart] at hcode
    cases r with
    | error e => cases hcode
    | ok code =>
      obtain ⟨specs, cleanUp, hbuild, htrace, -, hremoves, -⟩ := start_removes rfl rfl hstart
      rw [show (⟨[⟨none, [], some slow⟩]⟩ : Plan).build = .ok [slow] from rfl] at hbuild
      obtain rfl := Except.ok.inj hbuild
      -- The signal is an early one, so nothing is removed.
      refine ⟨l', cleanUp, ?_, htrace, hready, fun id h => ((hremoves id).mp h).1 hearly⟩
      rw [Option.some.inj hcode]

end Launcher
end Slipway.Launch
