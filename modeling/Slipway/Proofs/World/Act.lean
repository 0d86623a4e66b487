import Slipway.World.Act

/-!
# `Slipway.Proofs.World.Act`: acts that go on

An act takes a stage to a stage. `Stage.Onward` says of two stages that the second comes out of the
first by going on: time does not go back, the world and the id stay, phases are only entered, and
notes are only added, each of them of the kind `P` and noted meanwhile. `Act.Goes P` says it of an
act that enters no phase, for every stage that it starts from. It holds of each call to the engine
for the notes of that call, and of acts done one after the other if it holds of each (`Goes.bind`).

`bind_eq_ok` and `bind_eq_error` take apart how two acts in a row end.
-/

set_option autoImplicit false

namespace Slipway.World

namespace Act

variable {α β : Type} {x : Act α} {f : α → Act β} {s t u : Stage} {e : Fault}

instance : LawfulMonad Act := LawfulMonad.mk' Act
  (fun x => by
    funext s
    show andThen x give s = x s
    cases h : x s with
    | mk r t => cases r <;> simp [andThen, give, h])
  (fun _ _ => rfl)
  (fun x f g => by
    funext s
    show andThen (andThen x f) g s = andThen x (fun a => andThen (f a) g) s
    cases h : x s with
    | mk r t => cases r <;> simp [andThen, h])

/-! ### Acts in a row -/

/-- What returns goes on. -/
theorem bind_of_ok {a : α} (h : x s = (.ok a, t)) : (x >>= f) s = f a t := by
  show andThen x f s = _
  rw [andThen, h]

/-- What fails does not go on. -/
theorem bind_of_error (h : x s = (.error e, t)) : (x >>= f) s = (.error e, t) := by
  show andThen x f s = _
  rw [andThen, h]

/-- Two acts end well together if each does. -/
theorem bind_eq_ok {b : β} :
    (x >>= f) s = (.ok b, u) ↔ ∃ a t, x s = (.ok a, t) ∧ f a t = (.ok b, u) := by
  cases hx : x s with
  | mk r t =>
    cases r with
    | ok a =>
      rw [bind_of_ok hx]
      constructor
      · exact fun h => ⟨a, t, rfl, h⟩
      · rintro ⟨a', t', h', h⟩
        cases h'
        exact h
    -- The first act must return.
    | error e => simp [bind_of_error hx]

/-- Two acts end with a fault if the first does, or the second after the first. -/
theorem bind_eq_error :
    (x >>= f) s = (.error e, u) ↔
      x s = (.error e, u) ∨ ∃ a t, x s = (.ok a, t) ∧ f a t = (.error e, u) := by
  cases hx : x s with
  | mk r t =>
    cases r with
    -- The first act returns, so the fault comes from the second.
    | ok a =>
      rw [bind_of_ok hx]
      constructor
      · exact fun h => .inr ⟨a, t, rfl, h⟩
      · rintro (h' | ⟨a', t', h', h⟩)
        · cases h'
        · cases h'
          exact h
    | error e' => simp [bind_of_error hx]

/-- Giving a value in the end leaves the stage as it is. -/
theorem snd_bind_give (x : Act α) (b : β) (s : Stage) :
    ((x >>= fun _ => give b) s).2 = (x s).2 := by
  cases hx : x s with
  | mk r t =>
    cases r with
    | ok a => rw [bind_of_ok hx, give]
    | error e => rw [bind_of_error hx]

/-- If the second of two acts always ends well, a fault is that of the first. -/
theorem eq_error_of_bind (h : (x >>= f) s = (.error e, u)) (hf : ∀ a t, ∃ b, (f a t).1 = .ok b) :
    x s = (.error e, u) := by
  rcases bind_eq_error.mp h with h | ⟨a, t, -, h⟩
  · exact h
  · obtain ⟨b, hb⟩ := hf a t
    rw [h] at hb
    cases hb

/-- An act that only gives a value in the end ends well if what comes before does. -/
theorem bind_give_eq_ok {g : α → β} {b : β} :
    (x >>= fun a => give (g a)) s = (.ok b, u) ↔ ∃ a, x s = (.ok a, u) ∧ g a = b := by
  rw [bind_eq_ok]
  constructor
  · rintro ⟨a, t, hx, h⟩
    cases h
    exact ⟨a, hx, rfl⟩
  · rintro ⟨a, hx, rfl⟩
    exact ⟨a, u, hx, rfl⟩

/-- Giving a value does not fail. -/
theorem bind_give_eq_error {g : α → β} :
    (x >>= fun a => give (g a)) s = (.error e, u) ↔ x s = (.error e, u) :=
  ⟨fun h => eq_error_of_bind h fun a _ => ⟨g a, rfl⟩, bind_of_error⟩

/-- A value is given on. -/
theorem give_bind (a : α) (f : α → Act β) : give a >>= f = f a := rfl

/-- What follows an act only counts for the values that the act can give. -/
theorem bind_congr_of_ok {g : α → Act β} (h : ∀ s t a, x s = (.ok a, t) → f a = g a) :
    x >>= f = x >>= g := by
  funext s
  cases hx : x s with
  | mk r t =>
    cases r with
    | ok a => rw [bind_of_ok hx, bind_of_ok hx, h s t a hx]
    | error e => rw [bind_of_error hx, bind_of_error hx]

end Act

namespace Act

/-- A property of acts that is kept by acts in a row, so that a list of acts has it if each of them
does. -/
structure Composes (P : (α : Type) → Act α → Prop) : Prop where
  give : ∀ {α : Type} (a : α), P α (give a)
  bind : ∀ {α β : Type} {x : Act α} {f : α → Act β}, P α x → (∀ a, P β (f a)) → P β (x >>= f)

/-- A relation of acts that is kept by acts in a row, so that two lists of acts are in it if their
members are. -/
structure Relates (R : (α : Type) → Act α → Act α → Prop) : Prop where
  give : ∀ {α : Type} (a : α), R α (give a) (give a)
  bind : ∀ {α β : Type} {x x' : Act α} {f f' : α → Act β},
    R α x x' → (∀ a, R β (f a) (f' a)) → R β (x >>= f) (x' >>= f')

/-- A property is a relation that looks at the first of two acts. -/
theorem Composes.relates {P : (α : Type) → Act α → Prop} (hP : Composes P) :
    Relates fun α x _ => P α x :=
  ⟨hP.give, hP.bind⟩

end Act

/-! ### Stages that go on -/

/-- A stage that comes out of another by going on, with notes of some kind and through phases. -/
structure Stage.Onward (P : Note → Prop) (phases : List Phase) (s t : Stage) : Prop where
  world : t.world = s.world
  id : t.id = s.id
  history : t.history = s.history ++ phases
  le_now : s.now ≤ t.now
  trace : ∃ more, t.trace = s.trace ++ more ∧
    ∀ e ∈ more, s.now ≤ e.time ∧ e.time ≤ t.now ∧ P e.note

namespace Stage.Onward

variable {P Q : Note → Prop} {phases phases' : List Phase} {s t u : Stage}

/-- A stage that differs in its box, its start and a later moment has gone on without notes. -/
theorem of_trace_eq (hworld : t.world = s.world) (hid : t.id = s.id)
    (hhistory : t.history = s.history) (hnow : s.now ≤ t.now) (htrace : t.trace = s.trace) :
    s.Onward P [] t :=
  ⟨hworld, hid, by simp [hhistory], hnow, [], by simp [htrace], by simp⟩

/-- Nothing at all goes on. -/
theorem refl (P : Note → Prop) (s : Stage) : s.Onward P [] s :=
  of_trace_eq rfl rfl rfl (Int.le_refl _) rfl

/-- Going on twice is going on. -/
theorem trans (h : s.Onward P phases t) (h' : t.Onward P phases' u) :
    s.Onward P (phases ++ phases') u := by
  obtain ⟨more, hmore, hP⟩ := h.trace
  obtain ⟨more', hmore', hP'⟩ := h'.trace
  refine ⟨h'.world.trans h.world, h'.id.trans h.id, ?_, Int.le_trans h.le_now h'.le_now,
    more ++ more', ?_, fun e he => ?_⟩
  · rw [h'.history, h.history, List.append_assoc]
  · rw [hmore', hmore, List.append_assoc]
  · -- An entry is of the first part or of the second.
    rcases List.mem_append.mp he with he | he
    · obtain ⟨hs, ht, hn⟩ := hP e he
      exact ⟨hs, Int.le_trans ht h'.le_now, hn⟩
    · obtain ⟨hs, ht, hn⟩ := hP' e he
      exact ⟨Int.le_trans h.le_now hs, ht, hn⟩

/-- What goes on with notes of one kind goes on with notes of any larger kind. -/
theorem mono (h : s.Onward P phases t) (hPQ : ∀ n, P n → Q n) : s.Onward Q phases t := by
  obtain ⟨more, hmore, hP⟩ := h.trace
  refine ⟨h.world, h.id, h.history, h.le_now, more, hmore, fun e he => ?_⟩
  obtain ⟨hs, ht, hn⟩ := hP e he
  exact ⟨hs, ht, hPQ _ hn⟩

/-- A note goes on. -/
theorem note (s : Stage) {n : Note} (h : P n) : s.Onward P [] (s.note n) :=
  ⟨rfl, rfl, (List.append_nil _).symm, Int.le_refl _, [⟨s.now, n⟩], rfl, by simp [h, Stage.note]⟩

/-- All that has been noted is still there later. -/
theorem mem_trace (h : s.Onward P phases t) {e : Entry} (he : e ∈ s.trace) : e ∈ t.trace := by
  obtain ⟨more, hmore, -⟩ := h.trace
  rw [hmore]
  exact List.mem_append_left more he

end Stage.Onward

namespace Act

variable {α β : Type} {P : Note → Prop}

/-- Whether an act goes on from every stage, with notes of some kind and in the phase it is in. -/
def Goes (P : Note → Prop) (x : Act α) : Prop :=
  ∀ s : Stage, s.Onward P [] (x s).2

/-- An act that notes only one kind of notes notes only notes of any larger kind. -/
theorem Goes.mono {Q : Note → Prop} {x : Act α} (h : Goes P x) (hPQ : ∀ n, P n → Q n) :
    Goes Q x :=
  fun s => (h s).mono hPQ

/-- Acts in a row note what each of them does. -/
theorem Goes.bind {x : Act α} {f : α → Act β} (hx : Goes P x) (hf : ∀ a, Goes P (f a)) :
    Goes P (x >>= f) := by
  intro s
  have hs := hx s
  cases h : x s with
  | mk r t =>
    rw [h] at hs
    cases r with
    | ok a =>
      rw [bind_of_ok h]
      exact hs.trans (hf a t)
    -- The second act does not begin.
    | error e =>
      rw [bind_of_error h]
      exact hs

/-- To be pure notes nothing. -/
theorem goes_pure (a : α) : Goes P (pure a : Act α) := fun s => .refl P s

/-- A value notes nothing. -/
theorem goes_give (a : α) : Goes P (give a) := fun s => .refl P s

/-- So acts that note certain kinds compose. -/
theorem goes_composes (P : Note → Prop) : Composes fun _ x => Goes P x := ⟨goes_give, Goes.bind⟩

/-- A failure notes nothing. -/
theorem goes_fail (e : Fault) : Goes P (fail e : Act α) := fun s => .refl P s

/-- What is known notes nothing. -/
theorem goes_ofExcept (r : Except Fault α) : Goes P (ofExcept r) := fun s => .refl P s

/-- To look at the stage notes nothing. -/
theorem goes_stage : Goes P stage := fun s => .refl P s

/-- A failure that there may be notes nothing. -/
theorem goes_failIf (e : Option Fault) : Goes P (failIf e) := by
  cases e with
  | none => exact goes_give ()
  | some e => exact goes_fail e

/-- An attempt notes what its act does. -/
theorem Goes.attempt {x : Act α} (h : Goes P x) : Goes P (attempt x) := fun s => h s

/-- A note notes itself. -/
theorem goes_note {n : Note} (h : P n) : Goes P (note n) := fun s => .note s h

/-- A line in the log notes itself. -/
theorem goes_line {gravity : Gravity} {text : String} (h : P (.line gravity text)) :
    Goes P (line gravity text) :=
  goes_note h

/-- The passing of time notes nothing. -/
theorem goes_pass (length : Int) : Goes P (pass length) := fun s =>
  .of_trace_eq rfl rfl rfl (Clock.le_after s.now length) rfl

/-- A pause notes nothing, even if it is refused. -/
theorem goes_sleep (length : Int) : Goes P (sleep length) := by
  refine goes_stage.bind fun s => ?_
  split
  · exact goes_pass length
  · exact goes_fail _

/-- A change of the box notes nothing. -/
theorem goes_change (f : Box → Box) : Goes P (change f) := fun s =>
  .of_trace_eq rfl rfl rfl (Int.le_refl s.now) rfl

/-! ### Calls to the engine -/

section
variable {id : String}

/-- A start notes itself. -/
theorem goes_start (h : P (.event id .start)) : Goes P (start id) := by
  refine (goes_note h).bind fun _ => goes_stage.bind fun s => (goes_pass _).bind fun _ =>
    (goes_failIf _).bind fun _ => ?_
  exact fun s => .of_trace_eq rfl rfl rfl (Int.le_refl s.now) rfl

/-- The status notes nothing. -/
theorem goes_status : Goes P status :=
  goes_stage.bind fun _ => (goes_failIf _).bind fun _ => goes_give _

/-- An inspection notes itself. -/
theorem goes_inspect {spec : Spec} (h : P (.event id .inspect)) : Goes P (inspect spec id) :=
  (goes_note h).bind fun _ => goes_stage.bind fun _ => (goes_failIf _).bind fun _ => goes_give _

/-- A command notes itself. -/
theorem goes_exec {argv : List String} {user workdir : Option String}
    (h : P (.event id (.exec argv user workdir))) : Goes P (exec id argv user workdir) := by
  refine (goes_note h).bind fun _ => goes_stage.bind fun s => ?_
  split
  · exact goes_give _
  · exact (goes_change _).bind fun _ => (goes_pass _).bind fun _ => goes_stage.bind fun _ =>
      (goes_change _).bind fun _ => (goes_failIf _).bind fun _ => goes_give _

/-- A copy notes itself and what is stored. -/
theorem goes_copy {p : Payload} (hevent : P (.event id (.copy p.target p.mode)))
    (hstored : P (.stored id p.target p.content)) : Goes P (copy id p) :=
  (goes_note hevent).bind fun _ => goes_stage.bind fun _ => (goes_failIf _).bind fun _ =>
    goes_note hstored

end

end Act

/-- A command has no script in a box, or one of those in it. Scripts are only used up. -/
theorem Box.takeExec_cases (b : Box) (argv : List String) :
    b.takeExec argv = (none, b) ∨
      ∃ e ∈ b.execs, e.argv = argv ∧
        ∃ rest, rest ⊆ b.execs ∧ b.takeExec argv = (some e, { b with execs := rest }) := by
  have hfits : ∀ e ∈ b.execs.filter fun e => e.argv == argv, e ∈ b.execs ∧ e.argv = argv := by
    intro e he
    obtain ⟨hmem, hargv⟩ := List.mem_filter.mp he
    exact ⟨hmem, beq_iff_eq.mp hargv⟩
  unfold takeExec
  simp only
  -- None fits, one fits and is kept, or several fit and the first is taken.
  split
  · exact .inl rfl
  · rename_i e hlist
    obtain ⟨hmem, hargv⟩ := hfits e (by simp [hlist])
    exact .inr ⟨e, hmem, hargv, b.execs, List.Subset.refl _, rfl⟩
  · rename_i e _ _ hlist
    obtain ⟨hmem, hargv⟩ := hfits e (by simp [hlist])
    exact .inr ⟨e, hmem, hargv, _, fun x hx => List.mem_of_mem_eraseP hx, rfl⟩

/-- The stage after a command that has a script. The command took its time and wrote its output, and
the box is the one that is left. -/
def Stage.ran (s : Stage) (e : Exec) (box : Box) : Stage :=
  let now := Clock.after s.now e.took
  { s with
    now
    box := { box with
      logs := box.logs ++ e.emit.map fun (stream, data) => ⟨now, stream, data⟩ } }

namespace Act

/-- A command ends as its script says. One without a script ends well at once. -/
theorem exec_eq (id : String) (argv : List String) (user workdir : Option String) (s : Stage) :
    exec id argv user workdir s =
      let t := s.note (.event id (.exec argv user workdir))
      match s.box.takeExec argv with
      | (none, _) => (.ok ⟨some 0, [], []⟩, t)
      | (some e, box) =>
        ((match e.fault with
          | none => .ok e.result
          | some f => .error f), t.ran e box) := by
  show (match s.box.takeExec argv with
    | (none, _) => _
    | (some e, box) => _ : Act ExecResult) _ = _
  let t := s.note (.event id (.exec argv user workdir))
  rcases s.box.takeExec argv with ⟨_ | e, box⟩
  · rfl
  · -- The output is written when the time is over, and then the fault counts.
    show (failIf e.fault >>= fun _ => give e.result : Act ExecResult) (t.ran e box) =
      ((match e.fault with
        | none => .ok e.result
        | some f => .error f), t.ran e box)
    cases e.fault <;> rfl

/-- What a command gives back has an exit code that can be told: a script only holds such results.
-/
theorem isTellable_of_exec {id : String} {argv : List String} {user workdir : Option String}
    {s t : Stage} {r : ExecResult} (h : exec id argv user workdir s = (.ok r, t)) :
    r.isTellable = true := by
  rw [exec_eq] at h
  -- The result is the default one or that of the script, and both can be told.
  rcases htake : s.box.takeExec argv with ⟨_ | e, box⟩
  · rw [htake] at h
    cases h
    decide
  · rw [htake] at h
    cases hf : e.fault with
    | none =>
      simp only [hf, Prod.mk.injEq, Except.ok.injEq] at h
      exact h.1 ▸ e.tellable
    | some f => simp [hf] at h

/-- A sleep that the clock can take passes, and any other is refused at once. -/
theorem sleep_eq (length : Int) (s : Stage) :
    sleep length s = if s.world.canSleep length then (.ok (), s.pass length)
      else (.error (.defect .sleepTooLong), s) := by
  show (if s.world.canSleep length then pass length else fail _ : Act Unit) s = _
  split <;> rfl

/-- A removal is noted before it can go wrong. -/
theorem remove_eq (id : String) (s : Stage) :
    remove id s = ((match s.box.removeFault with
      | none => .ok ()
      | some e => .error e), s.note (.event id .remove)) := by
  show failIf s.box.removeFault _ = _
  cases s.box.removeFault <;> rfl

end Act
end Slipway.World
