import Mathlib.Data.List.Forall2
import Mathlib.Data.List.Nodup
import Slipway.Proofs.Lifecycle.Heedless
import Slipway.Proofs.Lifecycle.Removal
import Slipway.Proofs.World.Interleaving

/-!
# `Slipway.Proofs.Lifecycle.Isolation`: lifecycles side by side do not meet

Containers that are started together each take their course as if they were alone: the outcome is
the one that a start alone comes to, and so is all that is told of the container, at the same times.
This holds for every order in which the notes of the lifecycles come, since a lifecycle only notes
what concerns its own container (`subject_of_run`), and for every world that has the same box for
the container and the same URLs, since a lifecycle looks at nothing else (`alone_of_box`).

The image references have to be distinct. Two containers of one reference would be scripted by one
box. -/

set_option autoImplicit false

namespace Slipway

open Slipway.World (Act Note Stage Trace)
open Slipway.World.Trace (Interleaves TellsAlike)

/-! ### Subjects -/

namespace World.Note

variable {id i : String} {n : Note}

/-- A rise is about its own container only. -/
theorem IsRise.subject (h : n.IsRise id) (hn : n.subject? = some i) : i = id := by
  cases n with
  | event j e =>
    cases hn
    cases e <;> simp [IsRise, IsOpening, IsDeed] at h <;> exact h
  | stored j path content =>
    cases hn
    simpa [IsRise, IsOpening, IsDeed] using h
  | probe j p =>
    cases hn
    simpa [IsRise, IsOpening, IsDeed] using h
  | _ => cases hn

/-- A closing is about the container that it ends. -/
theorem IsClosing.subject {ended : Option String} (h : n.IsClosing ended)
    (hn : n.subject? = some i) :
    ended = some i := by
  cases n with
  | event j e =>
    cases hn
    cases e with
    | remove => exact h.1.symm
    | _ => exact h.elim
  | line gravity text => cases hn
  | _ => exact h.elim

end World.Note

namespace Lifecycle

section
variable {settings : Settings} {spec : Spec} {timeout : Option Binary64} {ordinal : Nat} {s : Stage}

/-- However bringing up ended, a lifecycle closes for the container of that stage. -/
theorem run_onward {r : Except Fault Container} {u : Stage}
    (h : bringUp settings spec timeout ordinal s = (r, u)) :
    ∃ phases, u.Onward (Note.IsClosing u.id) phases (run settings spec timeout ordinal s).2 := by
  cases r with
  | ok c =>
    obtain ⟨t, hrun, hready⟩ := run_of_ok h
    rw [hrun]
    exact ⟨_, hready.onward.mono fun _ hn => hn.of_none u.id⟩
  | error e =>
    obtain ⟨r, t, phases, hrun, hcloses, -⟩ := run_of_error h
    rw [hrun]
    exact ⟨phases, hcloses⟩

/-- The container of a lifecycle has the id that its creation gives, if it was created. -/
theorem id_of_run (hs : s.trace = []) (hid : s.id = none) {i : String}
    (hi : (run settings spec timeout ordinal s).2.id = some i) :
    i = Act.idOf s.box spec ordinal := by
  cases hup : bringUp settings spec timeout ordinal s with
  | mk r u =>
    obtain ⟨phases, hcloses⟩ := run_onward hup
    rw [hcloses.id] at hi
    have hrise := @bringUp_rise settings spec timeout ordinal s hs
    rw [hup] at hrise
    rcases hrise with ⟨e, -, hup'⟩ | ⟨-, phases', hrise⟩
    · -- No container was created.
      cases hup'
      rw [hid] at hi
      cases hi
    · rw [hrise.onward.id] at hi
      exact (Option.some.inj hi).symm

/-- All that a lifecycle notes of a container is of its own. -/
theorem id_of_subject (hs : s.trace = []) {x : World.Entry} {i : String}
    (hx : x ∈ (run settings spec timeout ordinal s).2.trace) (hi : x.note.subject? = some i) :
    (run settings spec timeout ordinal s).2.id = some i := by
  cases hup : bringUp settings spec timeout ordinal s with
  | mk r u =>
    obtain ⟨phases, hcloses⟩ := run_onward hup
    have hrise := @bringUp_rise settings spec timeout ordinal s hs
    rw [hup] at hrise
    rw [hcloses.id]
    rcases hrise with ⟨e, -, hup'⟩ | ⟨-, phases', hrise⟩
    · -- No container was created, so all that was noted is of the closing.
      cases hup'
      obtain ⟨more, hmore, hP⟩ := hcloses.trace
      rw [hmore, hs, List.nil_append] at hx
      exact (hP x hx).2.2.subject hi
    · rcases trace_of_closes hs hrise hcloses x hx with hn | hn
      · rw [hrise.onward.id, hn.subject hi]
      · exact hn.subject hi

/-- A lifecycle notes something of no container but its own. -/
theorem subject_of_run (hs : s.trace = []) (hid : s.id = none) {x : World.Entry} {i : String}
    (hx : x ∈ (run settings spec timeout ordinal s).2.trace) (hi : x.note.subject? = some i) :
    i = Act.idOf s.box spec ordinal :=
  id_of_run hs hid (id_of_subject hs hx hi)

end

/-! ### Starts alone -/

/-- The start of a container that is the first of its image reference. -/
def alone (settings : Settings) (world : World) (now : Int) (timeout : Option Binary64)
    (spec : Spec) :
    Finished :=
  run settings spec timeout 1 (.ready world (world.box spec.imageRef) now)

/-- The id that it is created with. -/
def aloneId (world : World) (spec : Spec) : String := Act.idOf (world.box spec.imageRef) spec 1

section
variable {settings : Settings} {world world' : World} {now : Int} {timeout : Option Binary64}
variable {spec : Spec} {specs : List Spec}

/-- A start only looks at its own box and at the URLs. -/
theorem alone_of_box (hhttp : world'.http = world.http)
    (hbox : world'.box spec.imageRef = world.box spec.imageRef) :
    (alone settings world' now timeout spec).1 = (alone settings world now timeout spec).1 ∧
      (alone settings world' now timeout spec).2.trace =
        (alone settings world now timeout spec).2.trace ∧
      (alone settings world' now timeout spec).2.now =
        (alone settings world now timeout spec).2.now := by
  let s : Stage := .ready world (world.box spec.imageRef) now
  let v : World.Variation := .amid world'
  have hvaried : Stage.ready world' (world'.box spec.imageRef) now = s.vary v := by
    -- The worlds differ only in the other boxes and in how long a thread may sleep.
    have hworld : world' = world.vary v := by
      cases world'
      cases hhttp
      rfl
    rw [hbox]
    exact congrArg (fun w => Stage.ready w (world.box spec.imageRef) now) hworld
  have hrun := run_heedless (v := v) (fun _ => rfl) settings spec timeout 1 s
  rw [alone, hvaried, hrun]
  exact ⟨rfl, rfl, rfl⟩

/-- A spec whose image reference no other has is the first of it. -/
theorem ordinal_eq_one (hdistinct : (specs.map Spec.imageRef).Nodup) {i : Nat}
    (hi : i < specs.length) :
    ((specs.take (i + 1)).filter (·.imageRef == specs[i].imageRef)).length = 1 := by
  -- Different references: none of those before has the one at hand.
  have hbefore : (specs.take i).filter (·.imageRef == specs[i].imageRef) = [] := by
    refine List.filter_eq_nil_iff.mpr fun s hs => ?_
    obtain ⟨j, hj, rfl⟩ := List.mem_take_iff_getElem.mp hs
    have hne : j ≠ i := by omega
    have hj' : j < (specs.map Spec.imageRef).length := by simp; omega
    have hi' : i < (specs.map Spec.imageRef).length := by simpa
    have hrefs : (specs.map Spec.imageRef)[j] ≠ (specs.map Spec.imageRef)[i] :=
      fun heq => hne (hdistinct.getElem_inj_iff.mp heq)
    simpa using hrefs
  rw [List.take_add_one, List.filter_append, hbefore, List.getElem?_eq_getElem hi]
  simp

/-- Of distinct image references, containers are started as if each was alone. -/
theorem startEach_eq_map (hdistinct : (specs.map Spec.imageRef).Nodup) :
    startEach settings world now specs timeout = specs.map (alone settings world now timeout) := by
  refine List.ext_getElem (by simp [startEach, ordinals]) fun i hi hi' => ?_
  simp only [startEach, ordinals, List.getElem_map, List.getElem_zip, List.getElem_zipIdx,
    Nat.zero_add]
  rw [ordinal_eq_one hdistinct]
  rfl

/-- Starts that each end with an outcome end with these. -/
theorem outcomes_eq_ok {runs : List Finished} {os : List Outcome}
    (h : List.Forall₂ (fun r o => r.1 = .ok o) runs os) : outcomes runs = .ok os := by
  induction h with
  | nil => rfl
  | @cons r o runs os hr _ ih =>
    rw [outcomes_cons, hr, ih]
    rfl

/-- What a trace of lifecycles side by side tells of a container is what its own lifecycle tells. -/
theorem tellsAlike_of_interleaves {t : Trace}
    (h : Interleaves (specs.map fun s => (alone settings world now timeout s).2.trace) t) {i : Nat}
    (hi : specs[i]? = some spec)
    (hid : ∀ j s, j ≠ i → specs[j]? = some s → aloneId world s ≠ aloneId world spec) :
    TellsAlike (aloneId world spec) t (alone settings world now timeout spec).2.trace := by
  refine h.tellsAlike (i := i) (by rw [List.getElem?_map, hi]; rfl) fun j q hj hq => ?_
  rw [List.getElem?_map] at hq
  obtain ⟨s, hs, rfl⟩ := Option.map_eq_some_iff.mp hq
  -- The notes of another lifecycle are of its own container, which has another id.
  refine World.Trace.of_eq_nil fun x hx hsubject => ?_
  have hown : aloneId world spec = aloneId world s := subject_of_run rfl rfl hx hsubject
  exact hid j s hj hs hown.symm

/-- Containers that are started together as if each was alone. -/
structure Isolated (settings : Settings) (world : World) (now : Int) (timeout : Option Binary64)
    (specs : List Spec) : Prop where
  /-- All outcomes are given, in the order of the specs, and each is that of the start alone. -/
  outcomes : ∃ os, Lifecycle.outcomes (startEach settings world now specs timeout) = .ok os ∧
    List.Forall₂ (fun s o => (alone settings world now timeout s).1 = .ok o) specs os
  /-- In whatever order the notes of the lifecycles come, a container of an id of its own is told of
  what is told of it in the start alone, at the same times. -/
  traces : ∀ t, Interleaves ((startEach settings world now specs timeout).map (·.2.trace)) t →
    ∀ (i : Nat) s, specs[i]? = some s →
      (∀ (j : Nat) s', j ≠ i → specs[j]? = some s' → aloneId world s' ≠ aloneId world s) →
      TellsAlike (aloneId world s) t (alone settings world now timeout s).2.trace
  /-- The lifecycles one after the other are such an order. -/
  own : Interleaves ((startEach settings world now specs timeout).map (·.2.trace))
    (traceOf (startEach settings world now specs timeout))
  /-- Whatever is in the boxes of the other containers, the start alone comes to the same, with the
  same notes, at the same time. -/
  others : ∀ world' : World, world'.http = world.http → ∀ s ∈ specs,
    world'.box s.imageRef = world.box s.imageRef →
      (alone settings world' now timeout s).1 = (alone settings world now timeout s).1 ∧
      (alone settings world' now timeout s).2.trace = (alone settings world now timeout s).2.trace ∧
      (alone settings world' now timeout s).2.now = (alone settings world now timeout s).2.now

/-- Containers of distinct image references that each come to an outcome alone do so together. -/
theorem startEach_isolated (hdistinct : (specs.map Spec.imageRef).Nodup)
    (halone : ∀ s ∈ specs, ∃ o, (alone settings world now timeout s).1 = .ok o) :
    Isolated settings world now timeout specs := by
  have hmap : startEach settings world now specs timeout =
      specs.map (alone settings world now timeout) :=
    startEach_eq_map hdistinct
  have htraces : (startEach settings world now specs timeout).map (·.2.trace) =
      specs.map fun s => (alone settings world now timeout s).2.trace := by
    rw [hmap, List.map_map]
    rfl
  refine ⟨?_, fun t ht i s hi hid => ?_, ?_, fun world' hhttp s _ hbox => alone_of_box hhttp hbox⟩
  · obtain ⟨os, hos⟩ : ∃ os : List Outcome,
        List.Forall₂ (fun s o => (alone settings world now timeout s).1 = .ok o) specs os := by
      clear hdistinct hmap htraces
      -- By the specs: each ends as it does alone.
      induction specs with
      | nil => exact ⟨[], .nil⟩
      | cons s rest ih =>
        obtain ⟨o, ho⟩ := halone s List.mem_cons_self
        obtain ⟨os, hos⟩ := ih fun s' hs' => halone s' (List.mem_cons_of_mem s hs')
        exact ⟨o :: os, .cons ho hos⟩
    rw [hmap]
    exact ⟨os, outcomes_eq_ok (List.forall₂_map_left_iff.mpr hos), hos⟩
  · rw [htraces] at ht
    exact tellsAlike_of_interleaves ht hi hid
  · rw [traceOf, List.flatMap_def]
    exact World.Trace.interleaves_flatten _

end

/-- A container that is ready after a while, and one that is waited for in vain. -/
def readyAndFailed : List Spec :=
  [{ Spec.ofImage "redis" "7.2" with waitFor := [.delay 200] },
    { Spec.ofImage "gitea" "1.22" with waitFor := [.healthcheck] }]

/-- One service is ready beside one that fails. -/
theorem startEach_isolated_of_failed :
    (readyAndFailed.map Spec.imageRef).Nodup ∧
      (∀ s ∈ readyAndFailed, ∃ o, (alone .usual .quiet 0 none s).1 = .ok o) ∧
      Isolated .usual .quiet 0 none readyAndFailed := by
  have hdistinct : (readyAndFailed.map Spec.imageRef).Nodup := by decide
  have hphases :
      readyAndFailed.map (fun s => (alone .usual .quiet 0 none s).1.toOption.map Outcome.phase)
      = [some .ready, some .failed] := by decide +kernel
  have halone : ∀ s ∈ readyAndFailed, ∃ o, (alone .usual .quiet 0 none s).1 = .ok o := by
    intro s hs
    have hmem := List.mem_map_of_mem (f := fun s => (alone .usual .quiet 0 none s).1.toOption.map
      Outcome.phase) hs
    rw [hphases] at hmem
    -- Both end with an outcome, so neither raises.
    cases hr : (alone .usual .quiet 0 none s).1 with
    | ok o => exact ⟨o, rfl⟩
    | error e => simp [hr, Except.toOption] at hmem
  exact ⟨hdistinct, halone, startEach_isolated hdistinct halone⟩

end Lifecycle
end Slipway
