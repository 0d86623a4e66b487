import Slipway.Proofs.World.Act

/-!
# `Slipway.Proofs.World.Events`: which events an act adds

`Act.Records` says of an act that it adds some events to the trace and no others, however it ends. A
call to the engine adds its own. What goes on with notes of another kind adds none (`Goes.records`),
and may come after an act that adds some (`Records.bind`). -/

set_option autoImplicit false

namespace Slipway.World

/-- What a trace tells to have been done, with the container to which it was done. -/
def Trace.allEvents (t : Trace) : List (String × Event) :=
  t.filterMap fun x => match x.note with
    | .event id e => some (id, e)
    | _ => none

/-- The events of two traces stand one after the other. -/
theorem Trace.allEvents_append (t more : Trace) :
    allEvents (t ++ more) = allEvents t ++ allEvents more :=
  List.filterMap_append

namespace Act

variable {α β : Type} {es : List (String × Event)} {x : Act α}

/-- Whether an act adds some events and no others, however it ends. -/
def Records (es : List (String × Event)) (x : Act α) : Prop :=
  ∀ s, (x s).2.trace.allEvents = s.trace.allEvents ++ es

/-- What goes on with notes that are no events records none. -/
theorem Goes.records {P : Note → Prop} (h : Goes P x) (hP : ∀ id e, ¬ P (.event id e)) :
    Records [] x := by
  intro s
  obtain ⟨more, hmore, hnotes⟩ := (h s).trace
  have hnone : Trace.allEvents more = [] := by
    refine List.filterMap_eq_nil_iff.mpr fun n hn => ?_
    split
    · rename_i id e hnote
      exact absurd (hnote ▸ (hnotes n hn).2.2) (hP id e)
    · rfl
  rw [hmore, Trace.allEvents_append, hnone]

/-- What goes on without a note records nothing. -/
theorem Goes.records_nil (h : Goes (fun _ => False) x) : Records [] x := h.records fun _ _ => id

/-- A line in the log records no event. -/
theorem records_line (gravity : Gravity) (text : String) : Records [] (line gravity text) := by
  have hline : Goes (fun n => ∃ g s, n = .line g s) (line gravity text) := goes_line ⟨_, _, rfl⟩
  exact hline.records (by rintro id e ⟨g, s, h⟩; cases h)

/-- Events are those of the first of two acts if the second records none. -/
theorem Records.bind {f : α → Act β} (hx : Records es x) (hf : ∀ a, Records [] (f a)) :
    Records es (x >>= f) := by
  intro s
  have hs := hx s
  cases h : x s with
  | mk r t =>
    rw [h] at hs
    cases r with
    | ok a => rw [bind_of_ok h, hf a t, hs, List.append_nil]
    | error e => rw [bind_of_error h, hs]

/-- Acts that record no event compose. -/
theorem records_composes : Composes fun _ x => Records [] x where
  give := fun _ s => (List.append_nil s.trace.allEvents).symm
  bind := Records.bind

/-- A line more is no event. -/
theorem Records.after_line {gravity : Gravity} {text : String} (h : Records es x) :
    Records es (line gravity text >>= fun _ => x) := by
  intro s
  have hline := records_line gravity text s
  rw [List.append_nil] at hline
  rw [← hline]
  exact h _

/-- A command records itself. -/
theorem records_exec (id : String) (argv : List String) (user workdir : Option String) :
    Records [(id, .exec argv user workdir)] (exec id argv user workdir) := by
  intro s
  have htrace : (exec id argv user workdir s).2.trace =
      s.trace ++ [⟨s.now, .event id (.exec argv user workdir)⟩] := by
    rw [exec_eq]
    rcases s.box.takeExec argv with ⟨_ | e, box⟩ <;> rfl
  rw [htrace, Trace.allEvents_append]
  rfl

/-- A copy records itself. -/
theorem records_copy (id : String) (p : Payload) :
    Records [(id, .copy p.target p.mode)] (copy id p) := by
  -- What is stored is noted, but it is no event.
  have hrest : ∀ e : Option Fault,
      Records [] (failIf e >>= fun _ => note (.stored id p.target p.content)) := by
    have hstored : Goes (fun n => ∃ i path content, n = .stored i path content)
        (note (.stored id p.target p.content)) := goes_note ⟨_, _, _, rfl⟩
    refine fun e => Goes.records ((goes_failIf e).bind fun _ => hstored) ?_
    rintro i ev ⟨_, _, _, h⟩
    cases h
  intro s
  have hnote : (s.note (.event id (.copy p.target p.mode))).trace.allEvents =
      s.trace.allEvents ++ [(id, .copy p.target p.mode)] := Trace.allEvents_append _ _
  rw [← hnote, ← List.append_nil (s.note _).trace.allEvents]
  exact hrest s.box.copyFault _

end Act

end Slipway.World
