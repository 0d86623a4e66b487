import Mathlib.Data.List.Nodup
import Slipway.Spec

/-!
# `Slipway.Proofs.Injection.Agenda`: what is done for a list of sources, and when

A list of sources is gone through from the front. A step is run when its turn comes, and a factory
is called when its turn comes, before the steps that it makes. `agenda` writes this down as one list
of moves: each is the call of a factory or the run of a step. A factory that fails is the end of the
agenda.

`Expands` says how the agenda belongs to the sources, and `agenda_expands` proves it. Each part goes
by induction on the sources. For the calls, an agenda is split at one of them: it belongs to the
first source (`split_at_opening`), or stands behind the steps of it (`split_at_call`). -/

set_option autoImplicit false

namespace Slipway.Injection

/-! ### Moves -/

/-- Something that is done for a list of sources. -/
inductive Move where
  /-- A factory is called that stands at a position of the list. -/
  | call (position : Nat) (make : Factory)
  /-- A step is run. -/
  | run (step : Step)

namespace Move

/-- The position of the factory that is called. -/
def position? : Move → Option Nat
  | call i _ => some i
  | run _ => none

/-- The step that is run. -/
def step? : Move → Option Step
  | call _ _ => none
  | run step => some step

end Move

/-- The steps among moves. -/
def stepsOf (moves : List Move) : List Step := moves.filterMap Move.step?

/-- What is done before the steps of a source are known. -/
def opening (i : Nat) : Source → List Move
  | .step _ => []
  | .factory make => [.call i make]

/-- The moves for sources of which the first stands at position `i`. A factory that fails makes no
steps, and no source after it has its turn. -/
def agenda (c : Container) : Nat → List Source → List Move
  | _, [] => []
  | i, source :: rest => opening i source ++
    match source.expand c with
    | .error _ => []
    | .ok steps => steps.map .run ++ agenda c (i + 1) rest

/-- How an agenda belongs to its sources. -/
structure Expands (c : Container) (sources : List Source) (moves : List Move) : Prop where
  /-- Its steps are those of the sources, in order. -/
  steps : ∀ steps, Source.expandAll c sources = .ok steps → stepsOf moves = steps
  /-- If a factory fails, its call comes last. -/
  failing : ∀ e, Source.expandAll c sources = .error e →
    ∃ before i make, moves = before ++ [.call i make] ∧ make c = .error e
  /-- A factory that is called is a source. Its call comes after all steps of the sources before it,
  and its own steps come at once after the call. -/
  calls : ∀ before i make after, moves = before ++ .call i make :: after →
    sources[i]? = some (.factory make) ∧
      Source.expandAll c (sources.take i) = .ok (stepsOf before) ∧
      ∀ steps, make c = .ok steps → steps.map .run <+: after
  /-- No factory is called twice. -/
  once : (moves.filterMap Move.position?).Nodup

/-! ### The steps of an agenda -/

section
variable {c : Container} {i j : Nat} {source : Source} {sources : List Source} {make : Factory}
variable {e : Fault} {steps : List Step} {before after : List Move}

/-- The steps of two agendas are those of the one and those of the other. -/
theorem stepsOf_append (moves moves' : List Move) :
    stepsOf (moves ++ moves') = stepsOf moves ++ stepsOf moves' :=
  List.filterMap_append

/-- An agenda that only runs steps runs these steps. -/
theorem stepsOf_run (steps : List Step) : stepsOf (steps.map .run) = steps := by
  simp [stepsOf, List.filterMap_map, Function.comp_def, Move.step?]

/-- The call of a factory is no step. -/
theorem stepsOf_opening (i : Nat) (source : Source) : stepsOf (opening i source) = [] := by
  cases source <;> rfl

/-- A source that expands is opened and run, and then comes the rest. -/
theorem agenda_of_ok (h : source.expand c = .ok steps) :
    agenda c i (source :: sources) =
      opening i source ++ (steps.map .run ++ agenda c (i + 1) sources) := by
  rw [agenda, h]

/-- A source that fails is a factory, and its call is all that is done for it and after it. -/
theorem agenda_of_error (i : Nat) (sources : List Source) (h : source.expand c = .error e) :
    ∃ make, source = .factory make ∧ make c = .error e ∧
      agenda c i (source :: sources) = [.call i make] := by
  cases source with
  | step step => cases h
  | factory make => exact ⟨make, rfl, h, by rw [agenda, h]; rfl⟩

/-- Sources expand if the first and the others do. -/
theorem expandAll_eq_ok :
    Source.expandAll c (source :: sources) = .ok steps ↔
      ∃ own others, source.expand c = .ok own ∧ Source.expandAll c sources = .ok others ∧
        steps = own ++ others := by
  rw [Source.expandAll]
  cases source.expand c with
  | error e => simp
  | ok own => cases Source.expandAll c sources <;> simp [Except.map, eq_comm]

/-- Sources fail to expand where the first of them fails to that does. -/
theorem expandAll_eq_error :
    Source.expandAll c (source :: sources) = .error e ↔
      source.expand c = .error e ∨
        ∃ own, source.expand c = .ok own ∧ Source.expandAll c sources = .error e := by
  rw [Source.expandAll]
  cases source.expand c with
  | error e => simp
  | ok own => cases Source.expandAll c sources <;> simp [Except.map]

/-- Where all sources expand, the agenda runs their steps in order. -/
theorem stepsOf_agenda (i : Nat) (h : Source.expandAll c sources = .ok steps) :
    stepsOf (agenda c i sources) = steps := by
  induction sources generalizing i steps with
  | nil =>
    cases h
    rfl
  | cons source rest ih =>
    obtain ⟨own, others, hexpand, hrest, rfl⟩ := expandAll_eq_ok.mp h
    rw [agenda_of_ok hexpand, stepsOf_append, stepsOf_append, stepsOf_opening, stepsOf_run,
      ih _ hrest, List.nil_append]

/-- If a factory fails, its call is the last move. -/
theorem agenda_failing (i : Nat) (h : Source.expandAll c sources = .error e) :
    ∃ before j make, agenda c i sources = before ++ [.call j make] ∧ make c = .error e := by
  induction sources generalizing i with
  | nil => cases h
  | cons source rest ih =>
    rcases expandAll_eq_error.mp h with hexpand | ⟨own, hexpand, hrest⟩
    · obtain ⟨make, -, hmake, hagenda⟩ := agenda_of_error i rest hexpand
      exact ⟨[], i, make, hagenda, hmake⟩
    · obtain ⟨before, j, make, hagenda, hmake⟩ := ih (i + 1) hrest
      refine ⟨opening i source ++ (own.map .run ++ before), j, make, ?_, hmake⟩
      rw [agenda_of_ok hexpand, hagenda]
      simp only [List.append_assoc]

/-! ### The calls of an agenda -/

/-- Moves that begin with runs of steps have no call among these. -/
theorem split_at_call {own : List Step} {moves : List Move}
    (h : own.map .run ++ moves = before ++ .call j make :: after) :
    ∃ between, before = own.map .run ++ between ∧ moves = between ++ .call j make :: after := by
  -- A call is none of the steps that are run, so it stands behind all of them.
  induction own generalizing before with
  | nil => exact ⟨before, rfl, h⟩
  | cons step own ih =>
    cases before with
    | nil => cases h
    | cons m before =>
      rw [List.map_cons, List.cons_append, List.cons_append] at h
      obtain ⟨rfl, htail⟩ := List.cons.inj h
      obtain ⟨between, rfl, hmoves⟩ := ih htail
      exact ⟨between, rfl, hmoves⟩

/-- A call among the moves for a source and after it is that of the source itself or comes later. -/
theorem split_at_opening {moves : List Move}
    (h : opening i source ++ moves = before ++ .call j make :: after) :
    (source = .factory make ∧ j = i ∧ before = [] ∧ after = moves) ∨
      ∃ between, before = opening i source ++ between ∧
        moves = between ++ .call j make :: after := by
  cases source with
  | step step => exact .inr ⟨before, rfl, h⟩
  | factory make' =>
    -- The call of this factory is the first move; any other comes later.
    cases before with
    | nil =>
      cases h
      exact .inl ⟨rfl, rfl, rfl, rfl⟩
    | cons m before =>
      obtain ⟨rfl, htail⟩ := List.cons.inj h
      exact .inr ⟨before, rfl, htail⟩

/-- Where the call of a factory stands in an agenda. -/
theorem agenda_calls (h : agenda c i sources = before ++ .call j make :: after) :
    ∃ k, j = i + k ∧ sources[k]? = some (.factory make) ∧
      Source.expandAll c (sources.take k) = .ok (stepsOf before) ∧
      ∀ steps, make c = .ok steps → steps.map .run <+: after := by
  induction sources generalizing i before with
  | nil =>
    have hlength := congrArg List.length h
    simp [agenda] at hlength
  | cons source rest ih =>
    rw [agenda] at h
    obtain ⟨rfl, rfl, rfl, rfl⟩ | ⟨between, rfl, hbetween⟩ := split_at_opening h
    · -- The call is that of the first source, and nothing comes before it.
      refine ⟨0, (Nat.add_zero _).symm, rfl, rfl, fun steps hmake => ?_⟩
      have hexpand : (Source.factory make).expand c = .ok steps := hmake
      rw [hexpand]
      exact List.prefix_append _ _
    · cases hexpand : source.expand c with
      | error e =>
        rw [hexpand] at hbetween
        simp at hbetween
      | ok own =>
        -- The steps of the first source come before the call, with what comes between.
        rw [hexpand] at hbetween
        obtain ⟨later, rfl, hlater⟩ := split_at_call hbetween
        obtain ⟨k, rfl, hsource, hexpandAll, hown⟩ := ih hlater
        refine ⟨k + 1, by omega, by simpa using hsource, ?_, hown⟩
        rw [List.take_succ_cons, stepsOf_append, stepsOf_append, stepsOf_opening, stepsOf_run]
        exact expandAll_eq_ok.mpr ⟨own, _, hexpand, hexpandAll, rfl⟩

/-- Runs of steps call no factory. -/
theorem positions_run (steps : List Step) : (steps.map Move.run).filterMap Move.position? = [] := by
  simp [List.filterMap_map, Function.comp_def, Move.position?]

/-- No factory is called that stands before the sources. -/
theorem le_of_mem_positions (h : j ∈ (agenda c i sources).filterMap Move.position?) : i ≤ j := by
  obtain ⟨m, hmem, hm⟩ := List.mem_filterMap.mp h
  cases m with
  | run step => cases hm
  | call j' make =>
    cases hm
    obtain ⟨before, after, hsplit⟩ := List.append_of_mem hmem
    obtain ⟨k, rfl, -⟩ := agenda_calls hsplit
    omega

/-- No factory is called twice. -/
theorem nodup_positions (c : Container) (i : Nat) (sources : List Source) :
    ((agenda c i sources).filterMap Move.position?).Nodup := by
  induction sources generalizing i with
  | nil => exact List.nodup_nil
  | cons source rest ih =>
    cases hexpand : source.expand c with
    | error e =>
      obtain ⟨make, -, -, hagenda⟩ := agenda_of_error i rest hexpand
      rw [hagenda]
      simp [Move.position?]
    | ok own =>
      rw [agenda_of_ok hexpand, List.filterMap_append, List.filterMap_append, positions_run,
        List.nil_append]
      cases source with
      | step step => exact ih (i + 1)
      | factory make =>
        -- Every later call is that of a source further back.
        refine List.nodup_cons.mpr ⟨fun hmem => ?_, ih (i + 1)⟩
        have hle := le_of_mem_positions hmem
        omega

/-- The agenda expands each factory when its turn has come. -/
theorem agenda_expands (c : Container) (sources : List Source) :
    Expands c sources (agenda c 0 sources) where
  steps _ h := stepsOf_agenda 0 h
  failing _ h := agenda_failing 0 h
  calls before i make after h := by
    obtain ⟨k, hk, hsource, hbefore, hown⟩ := agenda_calls h
    obtain rfl : i = k := by omega
    exact ⟨hsource, hbefore, hown⟩
  once := nodup_positions c 0 sources

end

end Slipway.Injection
