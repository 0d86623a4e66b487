import Slipway.Proofs.Injection.Agenda
import Slipway.Proofs.Injection.Completion
import Slipway.Proofs.World.Events

/-!
# `Slipway.Proofs.Injection.Order`: steps run in order, up to the first that fails

`runAll_eq` states that running sources is taking the moves of their agenda one after the other, so
that the rest is about lists of moves alone. `Takes` and `Fails` say how one move ends well or
badly, from the stage that the moves before it have left. By induction on the moves, a run ends well
iff it takes them all (`takeAll_eq_ok`), and one that ends badly has taken all moves before one that
fails (`takeAll_eq_error`). What is done to containers meanwhile is one event for each step
(`act_records`). `runAll_in_order` puts this together. -/

set_option autoImplicit false

namespace Slipway

open Slipway.World (Act Event Stage)

/-- What is done to a container by a step. -/
def Step.event : Step → Event
  | command c => .exec c.argv c.user c.workdir
  | copy p => .copy p.target p.mode

namespace Injection

/-! ### How moves end -/

section
variable (t : Target)

/-- The stages from which and to which the conditions of a command are waited for, if the wait ends
well. -/
inductive Settles (c : Command) (s : Stage) : Stage → Prop
  | unconditioned (hnone : c.readiness = []) : Settles c s s
  | waited (hsome : c.readiness ≠ []) (well : (waitFor t c s).fault = none) :
    Settles c s (waited s (waitFor t c s))

/-- A move ends well, with the result of a command. A command has ended well only when its
conditions are settled. -/
inductive Takes (s : Stage) : Move → List ExecResult → Stage → Prop
  | call {i : Nat} {make : Factory} {steps : List Step} (made : make t.container = .ok steps) :
    Takes s (.call i make) [] s
  | command {c : Command} {r : ExecResult} {after u : Stage}
    (performed : perform t c (announced t c s) = (.ok r, after)) (settled : Settles t c after u) :
    Takes s (.run (.command c)) [r] u
  | copy {p : Payload} {u : Stage} (copied : copy t p s = (.ok (), u)) :
    Takes s (.run (.copy p)) [] u

/-- A move ends with a fault. -/
inductive Fails (s : Stage) : Move → Fault → Stage → Prop
  | call {i : Nat} {make : Factory} {e : Fault} (unmade : make t.container = .error e) :
    Fails s (.call i make) e s
  | command {c : Command} {e : Fault} {u : Stage}
    (unperformed : perform t c (announced t c s) = (.error e, u)) : Fails s (.run (.command c)) e u
  | conditions {c : Command} {r : ExecResult} {e : Fault} {after : Stage}
    (performed : perform t c (announced t c s) = (.ok r, after)) (hsome : c.readiness ≠ [])
    (unsettled : (waitFor t c after).fault = some e) :
    Fails s (.run (.command c)) e (waited after (waitFor t c after))
  | copy {p : Payload} {e : Fault} {u : Stage} (uncopied : copy t p s = (.error e, u)) :
    Fails s (.run (.copy p)) e u

/-- Moves end well one after the other, each on the stage that the one before has left. The results
are those of the commands, in order. -/
inductive Taken : Stage → List Move → List ExecResult → Stage → Prop
  | nil (s : Stage) : Taken s [] [] s
  | cons {s v u : Stage} {m : Move} {rest : List Move} {rs others : List ExecResult}
    (first : Takes t s m rs v) (following : Taken v rest others u) :
    Taken s (m :: rest) (rs ++ others) u

end

/-! ### The specification -/

/-- Which moves a run of sources has begun. -/
structure Begins (t : Target) (sources : List Source) (s : Stage) (begun : List Move)
    (ended : Except Fault (List ExecResult) × Stage) : Prop where
  /-- They are the first of the agenda. -/
  first : begun <+: agenda t.container 0 sources
  /-- What is done to containers is what the steps among them do, in order. -/
  events : ended.2.trace.allEvents =
    s.trace.allEvents ++ (stepsOf begun).map fun step => (t.container.id, step.event)
  /-- A run that returns has taken all moves, and returns the results of the commands. -/
  returned : ∀ rs, ended.1 = .ok rs →
    begun = agenda t.container 0 sources ∧ Taken t s begun rs ended.2
  /-- If all moves of the agenda end well, the run returns. -/
  returns : ∀ rs u, Taken t s (agenda t.container 0 sources) rs u → ended = (.ok rs, u)
  /-- A run that does not return has taken all moves before the last that it has begun, and that one
  fails. -/
  raised : ∀ e, ended.1 = .error e → ∃ before last rs u, begun = before ++ [last] ∧
    Taken t s before rs u ∧ Fails t u last e ended.2

/-! ### One move -/

/-- A move as an act. -/
def Move.act (t : Target) : Move → Act (List ExecResult)
  | call _ make => Act.ofExcept (make t.container) >>= fun _ => Act.give []
  | run step => runStep t step >>= fun r => Act.give r.toList

section
variable {t : Target} {c : Command} {s u : Stage} {r : ExecResult} {e : Fault}

/-- A wait for the conditions of a command ends well iff there are none or the wait has no fault. -/
theorem settle_eq_ok : settle t c s = (.ok (), u) ↔ Settles t c s u := by
  by_cases hnone : c.readiness = []
  · rw [settle_of_no_conditions hnone]
    constructor
    · rintro ⟨⟩
      exact .unconditioned hnone
    · rintro (_ | hsome)
      · rfl
      · exact absurd hnone hsome
  · rw [settle_of_conditions hnone]
    constructor
    · intro h
      -- The wait decides: only one that is left without a fault settles the command.
      split at h
      · rename_i hwell
        cases h
        exact .waited hnone hwell
      · cases h
    · rintro (hempty | ⟨-, hwell⟩)
      · exact absurd hempty hnone
      · rw [hwell]

/-- A command does not settle if the wait for its conditions fails. -/
theorem settle_eq_error :
    settle t c s = (.error e, u) ↔
      c.readiness ≠ [] ∧ (waitFor t c s).fault = some e ∧ u = waited s (waitFor t c s) := by
  by_cases hnone : c.readiness = []
  · simp [settle_of_no_conditions hnone, hnone]
  · rw [settle_of_conditions hnone]
    constructor
    · intro h
      -- The wait decides.
      split at h
      · cases h
      · rename_i f hfault
        cases h
        exact ⟨hnone, hfault, rfl⟩
    · rintro ⟨-, hfault, rfl⟩
      rw [hfault]

/-- A command returns if its run does and it settles. -/
theorem exec_eq_ok :
    exec t c s = (.ok r, u) ↔
      ∃ after, perform t c (announced t c s) = (.ok r, after) ∧ Settles t c after u := by
  rw [exec_eq, Act.bind_eq_ok]
  constructor
  · rintro ⟨r', after, hperform, h⟩
    obtain ⟨_, hsettle, rfl⟩ := Act.bind_give_eq_ok.mp h
    exact ⟨after, hperform, settle_eq_ok.mp hsettle⟩
  · rintro ⟨after, hperform, hsettles⟩
    exact ⟨r, after, hperform, Act.bind_of_ok (settle_eq_ok.mpr hsettles)⟩

/-- A command fails in its own part or in the wait for its conditions. -/
theorem exec_eq_error : exec t c s = (.error e, u) ↔ Fails t s (.run (.command c)) e u := by
  rw [exec_eq, Act.bind_eq_error]
  constructor
  · rintro (hperform | ⟨r, after, hperform, h⟩)
    · exact .command hperform
    · obtain ⟨hsome, hfault, rfl⟩ := settle_eq_error.mp (Act.bind_give_eq_error.mp h)
      exact .conditions hperform hsome hfault
  · rintro (_ | hperform | ⟨hperform, hsome, hfault⟩)
    · exact .inl hperform
    · exact .inr ⟨_, _, hperform, Act.bind_of_error (settle_eq_error.mpr ⟨hsome, hfault, rfl⟩)⟩

/-- A move that runs a command gives its result. -/
theorem act_command (t : Target) (c : Command) :
    (Move.run (.command c)).act t = exec t c >>= fun r => Act.give [r] := by
  show (exec t c >>= fun r => Act.give (some r)) >>= _ = _
  rw [bind_assoc]
  rfl

/-- A move that copies gives no result. -/
theorem act_copy (t : Target) (p : Payload) :
    (Move.run (.copy p)).act t = copy t p >>= fun _ => Act.give [] := by
  show (copy t p >>= fun _ => Act.give none) >>= _ = _
  rw [bind_assoc]
  rfl

/-- What is known without the container changes nothing in it. -/
theorem ofExcept_eq {α : Type} {x y : Except Fault α} :
    Act.ofExcept x s = (y, u) ↔ x = y ∧ s = u :=
  Prod.mk.injEq _ _ _ _ ▸ Iff.rfl

/-- A move returns what it has taken. -/
theorem act_eq_ok {m : Move} {rs : List ExecResult} :
    m.act t s = (.ok rs, u) ↔ Takes t s m rs u := by
  match m with
  | .call i make =>
    rw [Move.act, Act.bind_give_eq_ok]
    constructor
    · rintro ⟨steps, hof, rfl⟩
      obtain ⟨hmade, rfl⟩ := ofExcept_eq.mp hof
      exact .call hmade
    · rintro ⟨hmade⟩
      exact ⟨_, ofExcept_eq.mpr ⟨hmade, rfl⟩, rfl⟩
  | .run (.command c) =>
    rw [act_command, Act.bind_give_eq_ok]
    constructor
    · rintro ⟨r, hexec, rfl⟩
      obtain ⟨after, hperform, hsettles⟩ := exec_eq_ok.mp hexec
      exact .command hperform hsettles
    · rintro (_ | ⟨hperform, hsettles⟩)
      exact ⟨_, exec_eq_ok.mpr ⟨_, hperform, hsettles⟩, rfl⟩
  | .run (.copy p) =>
    rw [act_copy, Act.bind_give_eq_ok]
    constructor
    · rintro ⟨_, hcopy, rfl⟩
      exact .copy hcopy
    · rintro (_ | _ | hcopy)
      exact ⟨(), hcopy, rfl⟩

/-- A move raises what it fails with. -/
theorem act_eq_error {m : Move} : m.act t s = (.error e, u) ↔ Fails t s m e u := by
  match m with
  | .call i make =>
    rw [Move.act, Act.bind_give_eq_error, ofExcept_eq]
    constructor
    · rintro ⟨hunmade, rfl⟩
      exact .call hunmade
    · rintro ⟨hunmade⟩
      exact ⟨hunmade, rfl⟩
  | .run (.command c) =>
    rw [act_command, Act.bind_give_eq_error, exec_eq_error]
  | .run (.copy p) =>
    rw [act_copy, Act.bind_give_eq_error]
    constructor
    · exact fun h => .copy h
    · rintro (_ | _ | _ | hcopy)
      exact hcopy

/-! ### All moves -/

/-- Moves one after the other, as one act. -/
def takeAll (t : Target) : List Move → Act (List ExecResult)
  | [] => Act.give []
  | m :: rest => do
    let rs ← m.act t
    let others ← takeAll t rest
    Act.give (rs ++ others)

/-- Agendas one after the other are taken one after the other. -/
theorem takeAll_append (t : Target) (moves moves' : List Move) :
    takeAll t (moves ++ moves') =
      takeAll t moves >>= fun rs => takeAll t moves' >>= fun others => Act.give (rs ++ others) := by
  induction moves with
  | nil => exact (bind_pure (takeAll t moves')).symm
  | cons m rest ih =>
    simp only [List.cons_append, takeAll, ih, bind_assoc, Act.give_bind, List.append_assoc]

/-- Running steps is taking the agenda of these steps. -/
theorem runSteps_eq (t : Target) (steps : List Step) :
    runSteps t steps = takeAll t (steps.map .run) := by
  induction steps with
  | nil => rfl
  | cons step rest ih =>
    simp only [List.map_cons, runSteps, takeAll, Move.act, ih, bind_assoc, Act.give_bind]

/-- To open a source is to call its factory, which is called again for its steps. -/
theorem takeAll_opening (t : Target) (i : Nat) (source : Source) :
    takeAll t (opening i source) =
      Act.ofExcept (source.expand t.container) >>= fun _ => Act.give [] := by
  cases source with
  | step step => rfl
  | factory make => simp only [opening, takeAll, Move.act, bind_assoc, Act.give_bind]; rfl

/-- Running sources is taking the moves of their agenda. -/
theorem runAll_eq (t : Target) (i : Nat) (sources : List Source) :
    runAll t sources = takeAll t (agenda t.container i sources) := by
  induction sources generalizing i with
  | nil => rfl
  | cons source rest ih =>
    rw [agenda, takeAll_append, takeAll_opening]
    simp only [runAll, bind_assoc, Act.give_bind, List.nil_append]
    cases hexpand : source.expand t.container with
    | error e =>
      -- The call has failed, so neither side comes to the rest.
      rfl
    | ok steps =>
      simp only [takeAll_append, ← runSteps_eq, ← ih]
      exact (bind_pure _).symm

/-- An agenda returns when all its moves do, with their results in order. -/
theorem takeAll_eq_ok {moves : List Move} {rs : List ExecResult} :
    takeAll t moves s = (.ok rs, u) ↔ Taken t s moves rs u := by
  -- By the moves: the rest starts where the first has ended.
  induction moves generalizing s rs with
  | nil =>
    constructor
    · rintro ⟨⟩
      exact .nil _
    · rintro ⟨⟩
      rfl
  | cons m rest ih =>
    rw [takeAll, Act.bind_eq_ok]
    constructor
    · rintro ⟨first, v, hm, h⟩
      obtain ⟨others, hothers, rfl⟩ := Act.bind_give_eq_ok.mp h
      exact .cons (act_eq_ok.mp hm) (ih.mp hothers)
    · rintro (_ | ⟨hm, hrest⟩)
      exact ⟨_, _, act_eq_ok.mpr hm, Act.bind_give_eq_ok.mpr ⟨_, ih.mpr hrest, rfl⟩⟩

/-- Moves that end badly have been taken up to one that fails. -/
theorem takeAll_eq_error {moves : List Move} (h : takeAll t moves s = (.error e, u)) :
    ∃ before last rest rs v, moves = before ++ last :: rest ∧ Taken t s before rs v ∧
      Fails t v last e u := by
  induction moves generalizing s with
  | nil => cases h
  | cons m rest ih =>
    rcases Act.bind_eq_error.mp h with hm | ⟨rs, v, hm, hrest⟩
    · exact ⟨[], m, rest, [], s, rfl, .nil s, act_eq_error.mp hm⟩
    · -- The first move has been taken, and so the fault is that of a later one.
      obtain ⟨before, last, after, others, w, rfl, htaken, hfails⟩ :=
        ih (Act.bind_give_eq_error.mp hrest)
      exact ⟨m :: before, last, after, rs ++ others, w, rfl, .cons (act_eq_ok.mp hm) htaken, hfails⟩

/-! ### What moves do to containers -/

/-- What is done to a container when a move is made. -/
def Move.events (t : Target) (m : Move) : List (String × Event) :=
  (stepsOf [m]).map fun step => (t.container.id, step.event)

/-- Forgiving records no event. -/
theorem records_forgive (c : Command) (r : Except Fault ExecResult) :
    Act.Records [] (forgive t c r) :=
  forgive_composes Act.records_composes Act.records_line fun e _ => (Act.goes_fail e).records_nil

/-- Holding a command to its completion records no event. -/
theorem records_hold (c : Command) (completion : Completion) (r : ExecResult) :
    Act.Records [] (hold t c completion r) :=
  hold_composes Act.records_composes (Act.goes_failIf _).records_nil fun millis _ =>
    (sleepAfter_goes t c millis).records_nil

/-- Running a command records one event, whatever its completion. -/
theorem records_perform (c : Command) :
    Act.Records [(t.container.id, .exec c.argv c.user c.workdir)] (perform t c) := by
  have hcall := Act.records_exec t.container.id c.argv c.user c.workdir
  cases hcompletion : c.completion with
  | none =>
    have hattempt : Act.Records [(t.container.id, .exec c.argv c.user c.workdir)]
        (Act.attempt (Act.exec t.container.id c.argv c.user c.workdir)) := hcall
    rw [perform_of_free hcompletion, runFreely_eq]
    exact hattempt.bind (records_forgive c)
  | some completion =>
    rw [perform_of_checked hcompletion, runChecked_eq]
    exact hcall.bind (records_hold c completion)

/-- Settling a command records no event. -/
theorem records_settle (t : Target) (c : Command) : Act.Records [] (settle t c) :=
  (settle_asks t c).records fun _ _ => id

/-- A move that runs a step does what the step is, and the call of a factory does nothing. -/
theorem act_records (m : Move) : Act.Records (m.events t) (m.act t) := by
  have hgive : ∀ rs : List ExecResult, Act.Records [] (Act.give rs) :=
    fun rs => (Act.goes_give rs).records_nil
  match m with
  | .call i make => exact (Act.goes_ofExcept _).records_nil.bind fun _ => hgive []
  | .run (.command c) =>
    have hexec : exec t c = Act.line .info (tag t ++ "exec: " ++ c.display) >>= fun _ =>
        perform t c >>= fun r => settle t c >>= fun _ => Act.give r := funext exec_eq
    rw [act_command, hexec]
    -- The only event is that of the run; lines and the wait are none.
    refine (Act.Records.after_line ?_).bind fun r => hgive [r]
    exact (records_perform c).bind fun r =>
      (records_settle t c).bind fun _ => (Act.goes_give r).records_nil
  | .run (.copy p) =>
    rw [act_copy]
    exact (Act.records_copy t.container.id p).after_line.bind fun _ => hgive []

/-- A move that fails has recorded its event all the same. -/
theorem events_of_fails {m : Move} (h : Fails t s m e u) :
    u.trace.allEvents = s.trace.allEvents ++ m.events t := by
  have hrecords := act_records (t := t) m s
  rwa [act_eq_error.mpr h] at hrecords

/-- Moves that were taken have recorded their events in order. -/
theorem events_of_taken {moves : List Move} {rs : List ExecResult} (h : Taken t s moves rs u) :
    u.trace.allEvents =
      s.trace.allEvents ++ (stepsOf moves).map fun step => (t.container.id, step.event) := by
  induction h with
  | nil s => exact (List.append_nil _).symm
  | @cons s v u m rest rs others first following ih =>
    have hrecords := act_records (t := t) m s
    rw [act_eq_ok.mpr first] at hrecords
    have hsplit : stepsOf (m :: rest) = stepsOf [m] ++ stepsOf rest := stepsOf_append [m] rest
    rw [ih, hrecords, hsplit, List.map_append, List.append_assoc, Move.events]

end

/-! ### Runs of sources -/

/-- Sources are run in order, and the first move that fails is the last. -/
theorem runAll_in_order (t : Target) (sources : List Source) (s : Stage) :
    Expands t.container sources (agenda t.container 0 sources) ∧
      ∃ begun, Begins t sources s begun (runAll t sources s) := by
  refine ⟨agenda_expands t.container sources, ?_⟩
  rw [runAll_eq t 0]
  have hreturns : ∀ rs u, Taken t s (agenda t.container 0 sources) rs u →
      takeAll t (agenda t.container 0 sources) s = (.ok rs, u) := fun _ _ => takeAll_eq_ok.mpr
  cases hrun : takeAll t (agenda t.container 0 sources) s with
  | mk ended u =>
    rw [hrun] at hreturns
    cases ended with
    -- What returned has begun its whole agenda.
    | ok rs =>
      have htaken := takeAll_eq_ok.mp hrun
      refine ⟨agenda t.container 0 sources, ?_⟩
      exact {
        first := List.prefix_rfl
        events := events_of_taken htaken
        returned := by
          rintro _ ⟨⟩
          exact ⟨rfl, htaken⟩
        returns := hreturns
        raised := nofun }
    -- What raised has begun its agenda up to the move that failed.
    | error e =>
      obtain ⟨before, last, rest, rs, v, hagenda, htaken, hfails⟩ := takeAll_eq_error hrun
      refine ⟨before ++ [last], ?_⟩
      exact {
        first := ⟨rest, by simp [hagenda]⟩
        events := by
          rw [events_of_fails hfails, events_of_taken htaken, stepsOf_append, List.map_append,
            List.append_assoc, Move.events]
        returned := nofun
        returns := hreturns
        raised := by
          rintro _ ⟨⟩
          exact ⟨before, last, rs, v, rfl, htaken, hfails⟩ }

/-- What a command is run against without a deadline. -/
def unlimited : Target := ⟨⟨"c1", "localhost", [], none⟩, .usual, none⟩

/-- One command that has to exit with zero. -/
def migration : Command := .checked ["migrate"]

/-- A stage on which the command exits with one. -/
def blocked : Stage :=
  .ready .quiet
    { World.Box.quiet with execs := [.exiting ["migrate"] 1 0 none] } 0

/-- A run may have begun all steps and raise all the same, if it is the last of them that fails. -/
theorem not_returned_of_whole :
    ¬ ∀ (t : Target) (sources : List Source) (s : Stage) (steps : List Step),
      Source.expandAll t.container sources = .ok steps →
        ((runAll t sources s).2.trace.allEvents =
            s.trace.allEvents ++ steps.map (fun step => (t.container.id, step.event)) ↔
          ∃ rs, (runAll t sources s).1 = .ok rs) := by
  intro hwhole
  -- The only step has begun, and it is the one that fails.
  have hbegun : (runAll unlimited [.step (.command migration)] blocked).2.trace.allEvents =
      [("c1", .exec ["migrate"] none none)] := by decide +kernel
  have hraised : (runAll unlimited [.step (.command migration)] blocked).1 =
      .error (.failure (.execFailed ["migrate"] (some 1) [] [] none)) := by decide +kernel
  have hsteps : Source.expandAll unlimited.container [.step (.command migration)] =
      .ok [.command migration] := rfl
  obtain ⟨rs, hrs⟩ := (hwhole unlimited _ blocked _ hsteps).mp hbegun
  rw [hraised] at hrs
  cases hrs

end Injection
end Slipway
