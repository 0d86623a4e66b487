import Slipway.Proofs.World.Act

/-!
# `Slipway.Proofs.World.Pace`: acts that keep a pace

Time goes by while commands run, and while something waits that knows a limit beyond which it does
not. So if the clock stands at `now`, what counts is `max now limit`: commands move it on by the
time that they take, and all else by what a timed wait overshoots.

`Stage.Paced limit slack s t more` states this of two stages and the notes between them. Each
command is counted with an overshoot (`Trace.spare`). A command by itself does not need that, so it
goes with a slack of one overshoot less, which the wait after it may use: steps in a row need no
slack at all.

The relation also keeps who is to blame. If more time went by than the overshoots, some command ran
beyond the limit (`Box.Overruns`). `Act.Paces` says it of an act, and `Paces.bind` adds the slacks
of two acts in a row. -/

set_option autoImplicit false

namespace Slipway

open Slipway.World (Note Stage Trace Entry)

/-! ### The time of commands -/

/-- The commands that a trace tells of, in their order. -/
def World.Trace.commands (t : Trace) : List (List String) :=
  t.filterMap fun x => match x.note with
    | .event _ (.exec argv _ _) => some argv
    | _ => none

/-- The commands of two traces stand one after the other. -/
theorem World.Trace.commands_append (t more : Trace) :
    commands (t ++ more) = commands t ++ commands more :=
  List.filterMap_append

namespace World.Box

variable {b b' : World.Box}

/-- How long commands take in a box, one after the other. One without a script takes no time. -/
def timeOf (b : World.Box) : List (List String) → Int
  | [] => 0
  | argv :: rest =>
    (match (b.takeExec argv).1 with
      | none => 0
      | some e => Clock.after 0 e.took) + timeOf (b.takeExec argv).2 rest

/-- What is taken for a command depends on the commands of the box only. -/
theorem takeExec_congr (h : b'.execs = b.execs) (argv : List String) :
    (b'.takeExec argv).1 = (b.takeExec argv).1 ∧
      (b'.takeExec argv).2.execs = (b.takeExec argv).2.execs := by
  unfold takeExec
  simp only [h]
  split <;> exact ⟨rfl, by first | exact h | rfl⟩

/-- The time of commands is a matter of the scripts only. -/
theorem timeOf_congr (h : b'.execs = b.execs) (commands : List (List String)) :
    b'.timeOf commands = b.timeOf commands := by
  induction commands generalizing b b' with
  | nil => rfl
  | cons argv rest ih =>
    obtain ⟨hfirst, hrest⟩ := takeExec_congr h argv
    rw [timeOf, timeOf, hfirst, ih hrest]

/-- Whether an entry is of a command that may have run beyond a moment. -/
def Overruns (b : World.Box) (limit : Int) (x : Entry) : Prop :=
  ∃ id argv user workdir, x.note = .event id (.exec argv user workdir) ∧
    ∃ e ∈ b.execs, e.argv = argv ∧ 0 < e.took ∧ limit < Clock.after x.time e.took

/-- A box with fewer commands overruns where the larger one does. -/
theorem Overruns.mono {limit : Int} {x : Entry} (h : b'.Overruns limit x)
    (hb : b'.execs ⊆ b.execs) :
    b.Overruns limit x := by
  obtain ⟨id, argv, user, workdir, hnote, e, he, hrest⟩ := h
  exact ⟨id, argv, user, workdir, hnote, e, hb he, hrest⟩

end World.Box

/-- Notes of which none is of a command tell of no commands. -/
theorem World.Trace.commands_eq_nil {t : Trace}
    (h : ∀ x ∈ t, ∀ id argv user workdir, x.note ≠ .event id (.exec argv user workdir)) :
    t.commands = [] := by
  refine List.filterMap_eq_nil_iff.mpr fun x hx => ?_
  split
  · rename_i id argv user workdir hnote
    exact absurd hnote (h x hx id argv user workdir)
  · rfl

/-- What goes on without noting a command leaves the commands as they are. -/
theorem World.Stage.Onward.commands_eq {P : Note → Prop} {phases : List Phase} {s t : Stage}
    (h : s.Onward P phases t)
    (hP : ∀ id argv user workdir, ¬ P (.event id (.exec argv user workdir))) :
    t.trace.commands = s.trace.commands := by
  obtain ⟨more, hmore, hnotes⟩ := h.trace
  have hnone : World.Trace.commands more = [] := by
    refine World.Trace.commands_eq_nil fun x hx id argv user workdir hnote => ?_
    exact hP id argv user workdir (hnote ▸ (hnotes x hx).2.2)
  rw [hmore, World.Trace.commands_append, hnone, List.append_nil]

/-! ### Stages at a pace -/

/-- What the clock may overshoot while some notes are made: once for each command, and some slack.
-/
def World.Trace.spare (slack : Int) (t : Trace) : Int :=
  t.commands.length * Clock.overshoot + slack

/-- The spare times of two traces add up. -/
theorem World.Trace.spare_append (slack slack' : Int) (t more : Trace) :
    spare (slack + slack') (t ++ more) = spare slack t + spare slack' more := by
  have hlength : ((t ++ more).commands.length : Int) =
      t.commands.length + more.commands.length := by
    rw [commands_append, List.length_append, Int.natCast_add]
  rw [spare, spare, spare, hlength, Int.add_mul]
  omega

/-- A stage that comes out of another with more notes, by commands and what waits for a limit. -/
structure World.Stage.Paced (limit slack : Int) (s t : Stage) (more : Trace) : Prop where
  trace : t.trace = s.trace ++ more
  execs : t.box.execs ⊆ s.box.execs
  /-- Commands that come later have the scripts that are left. -/
  timeOf : ∀ later,
    s.box.timeOf (more.commands ++ later) = s.box.timeOf more.commands + t.box.timeOf later
  spare_nonneg : 0 ≤ more.spare slack
  le_now : max t.now limit ≤ max s.now limit + s.box.timeOf more.commands + more.spare slack
  /-- Only a command that runs beyond the limit takes more than overshoots. -/
  late : max s.now limit + more.spare slack < t.now → ∃ x ∈ more, s.box.Overruns limit x

namespace World.Stage.Paced

variable {limit slack slack' : Int} {s t u : Stage} {more more' : Trace}

/-- What takes no command takes time up to the limit only, and some slack. -/
theorem of_idle (htrace : t.trace = s.trace ++ more) (hcommands : more.commands = [])
    (hexecs : t.box.execs = s.box.execs) (hslack : 0 ≤ slack)
    (hnow : t.now ≤ max s.now limit + slack) : s.Paced limit slack t more := by
  have hspare : more.spare slack = slack := by simp [World.Trace.spare, hcommands]
  have htime : s.box.timeOf more.commands = 0 := by rw [hcommands, World.Box.timeOf]
  -- No command was run, so the box has the commands that it had.
  refine ⟨htrace, ?_, fun later => ?_, ?_, ?_, fun hlate => ?_⟩
  · rw [hexecs]
    exact List.Subset.refl _
  · rw [htime, hcommands, World.Box.timeOf_congr hexecs]
    simp
  · omega
  · omega
  · omega

/-- More slack is allowed. -/
theorem mono (h : s.Paced limit slack t more) (hslack : slack ≤ slack') :
    s.Paced limit slack' t more := by
  have hspare : more.spare slack ≤ more.spare slack' := by
    unfold World.Trace.spare
    omega
  have hnonneg := h.spare_nonneg
  have hnow := h.le_now
  exact ⟨h.trace, h.execs, h.timeOf, by omega, by omega, fun hlate => h.late (by omega)⟩

/-- Paces add up. -/
theorem trans (h : s.Paced limit slack t more) (h' : t.Paced limit slack' u more') :
    s.Paced limit (slack + slack') u (more ++ more') := by
  have hspare := World.Trace.spare_append slack slack' more more'
  have hcommands := World.Trace.commands_append more more'
  have htime : s.box.timeOf (more ++ more').commands =
      s.box.timeOf more.commands + t.box.timeOf more'.commands := by
    rw [hcommands, h.timeOf]
  have hnonneg := h.spare_nonneg
  have hnonneg' := h'.spare_nonneg
  have hnow := h.le_now
  have hnow' := h'.le_now
  refine ⟨?_, fun e he => h.execs (h'.execs he), fun later => ?_, ?_, ?_, fun hlate => ?_⟩
  · rw [h'.trace, h.trace, List.append_assoc]
  · rw [htime, hcommands, List.append_assoc, h.timeOf, h'.timeOf]
    omega
  · omega
  · omega
  · -- What is late in the end became so before or after.
    by_cases hlater : max t.now limit + more'.spare slack' < u.now
    · obtain ⟨x, hx, hover⟩ := h'.late hlater
      exact ⟨x, List.mem_append_right more hx, hover.mono h.execs⟩
    · obtain ⟨x, hx, hover⟩ := h.late (by omega)
      exact ⟨x, List.mem_append_left more' hx, hover⟩

end World.Stage.Paced

namespace World.Act

/-- Whether an act keeps the pace, from whichever stage it starts. -/
def Paces {α : Type} (limit slack : Int) (x : Act α) : Prop :=
  ∀ s : Stage, ∃ more, s.Paced limit slack (x s).2 more

section
variable {α β : Type} {limit slack slack' : Int}

/-- Acts in a row keep the pace with the slack of both. -/
theorem Paces.bind {x : Act α} {f : α → Act β} (hx : Paces limit slack x)
    (hf : ∀ a, Paces limit slack' (f a)) (hslack : 0 ≤ slack') :
    Paces limit (slack + slack') (x >>= f) := by
  intro s
  obtain ⟨more, hs⟩ := hx s
  cases h : x s with
  | mk r t =>
    rw [h] at hs
    cases r with
    | ok a =>
      rw [bind_of_ok h]
      obtain ⟨more', ht⟩ := hf a t
      exact ⟨more ++ more', hs.trans ht⟩
    -- The second act does not begin, and its slack is spare.
    | error e =>
      rw [bind_of_error h]
      exact ⟨more, hs.mono (by omega)⟩

/-- More slack is allowed. -/
theorem Paces.mono {x : Act α} (h : Paces limit slack x) (hslack : slack ≤ slack') :
    Paces limit slack' x := by
  intro s
  obtain ⟨more, hs⟩ := h s
  exact ⟨more, hs.mono hslack⟩

/-- What goes before without any slack leaves the slack as it is. -/
theorem Paces.before {x : Act α} {f : α → Act β} (hx : Paces limit 0 x)
    (hf : ∀ a, Paces limit slack (f a)) (hslack : 0 ≤ slack) : Paces limit slack (x >>= f) := by
  have h := hx.bind hf hslack
  rwa [Int.zero_add] at h

/-- What follows without any slack leaves the slack as it is. -/
theorem Paces.then {x : Act α} {f : α → Act β} (hx : Paces limit slack x)
    (hf : ∀ a, Paces limit 0 (f a)) : Paces limit slack (x >>= f) := by
  have h := hx.bind hf (Int.le_refl 0)
  rwa [Int.add_zero] at h

/-- To look at the stage takes no time. -/
theorem Paces.of_stage {f : Stage → Act β} (hf : ∀ s, Paces limit slack (f s)) :
    Paces limit slack (stage >>= f) :=
  fun s => hf s s

/-- An attempt takes the time of its act. -/
theorem Paces.attempt {x : Act α} (h : Paces limit slack x) : Paces limit slack (attempt x) :=
  fun s => h s

/-- An act that leaves the clock, the notes and the scripts as they are keeps any pace. -/
theorem paces_of_still {x : Act α} (htrace : ∀ s, (x s).2.trace = s.trace)
    (hexecs : ∀ s, (x s).2.box.execs = s.box.execs) (hnow : ∀ s, (x s).2.now = s.now) :
    Paces limit 0 x := by
  intro s
  refine ⟨[], .of_idle ?_ rfl (hexecs s) (Int.le_refl 0) ?_⟩
  · rw [htrace, List.append_nil]
  · rw [hnow]
    omega

/-- A value takes no time. -/
theorem paces_give (a : α) : Paces limit 0 (give a) :=
  paces_of_still (fun _ => rfl) (fun _ => rfl) fun _ => rfl

/-- So acts that take the time of their commands compose. -/
theorem paces_composes (limit : Int) : Composes fun _ x => Paces limit 0 x :=
  ⟨paces_give, Paces.then⟩

/-- A failure takes no time. -/
theorem paces_fail (e : Fault) : Paces limit 0 (fail e : Act α) :=
  paces_of_still (fun _ => rfl) (fun _ => rfl) fun _ => rfl

/-- What is known takes no time. -/
theorem paces_ofExcept (r : Except Fault α) : Paces limit 0 (ofExcept r) :=
  paces_of_still (fun _ => rfl) (fun _ => rfl) fun _ => rfl

/-- A failure that there may be takes no time. -/
theorem paces_failIf (e : Option Fault) : Paces limit 0 (failIf e) := by
  cases e with
  | none => exact paces_give ()
  | some e => exact paces_fail e

/-- A note that is not of a command takes no time. -/
theorem paces_note {n : Note} (h : ∀ time, Trace.commands [⟨time, n⟩] = []) :
    Paces limit 0 (note n) := by
  intro s
  have hnow : (note n s).2.now ≤ max s.now limit + 0 := by
    show s.now ≤ _
    omega
  exact ⟨[⟨s.now, n⟩], .of_idle rfl (h s.now) rfl (Int.le_refl 0) hnow⟩

/-- A line in the log takes no time. -/
theorem paces_line (gravity : Gravity) (text : String) : Paces limit 0 (line gravity text) :=
  paces_note fun _ => rfl

/-- A command is counted with an overshoot that it does not need, and so is one ahead. -/
theorem paces_exec (id : String) (argv : List String) (user workdir : Option String) :
    Paces limit (-Clock.overshoot) (exec id argv user workdir) := by
  intro s
  let x : Entry := ⟨s.now, .event id (.exec argv user workdir)⟩
  have hcommands : Trace.commands [x] = [argv] := rfl
  have hspare : Trace.spare (-Clock.overshoot) [x] = 0 := by
    rw [Trace.spare, hcommands, List.length_singleton]
    omega
  refine ⟨[x], ?_⟩
  rw [exec_eq]
  rcases s.box.takeExec_cases argv with htake | ⟨e, hmem, hargv, rest, hrest, htake⟩
  · -- A command without a script is nothing but a note.
    have htime : s.box.timeOf [argv] = 0 := by simp [Box.timeOf, htake]
    rw [htake]
    refine ⟨rfl, List.Subset.refl _, fun later => ?_, Int.le_of_eq hspare.symm, ?_, fun hlate => ?_⟩
    · show s.box.timeOf (argv :: later) = s.box.timeOf [argv] + s.box.timeOf later
      rw [htime, Box.timeOf, htake]
    · show max s.now limit ≤ _
      rw [hcommands, htime, hspare]
      omega
    · have hstill : max s.now limit + 0 < s.now := hspare ▸ hlate
      omega
  · have htime : s.box.timeOf [argv] = Clock.after 0 e.took := by simp [Box.timeOf, htake]
    have hafter : Clock.after s.now e.took = s.now + Clock.after 0 e.took := by
      unfold Clock.after
      split <;> omega
    have hpositive : 0 ≤ Clock.after 0 e.took := Clock.le_after 0 e.took
    rw [htake]
    refine ⟨rfl, hrest, fun later => ?_, Int.le_of_eq hspare.symm, ?_, fun hlate => ?_⟩
    · -- The output that the command wrote does not change the scripts that are left.
      have hleft : (Stage.ran (s.note x.note) e { s.box with execs := rest }).box.execs = rest :=
        rfl
      show s.box.timeOf (argv :: later) = s.box.timeOf [argv] + _
      rw [htime, Box.timeOf, htake, @Box.timeOf_congr { s.box with execs := rest } _ hleft]
    · show max (Clock.after s.now e.took) limit ≤ _
      rw [hcommands, htime, hspare]
      omega
    · have hover : max s.now limit + 0 < Clock.after s.now e.took := hspare ▸ hlate
      have htook : 0 < e.took := by
        by_cases htook : 0 < e.took
        · exact htook
        · rw [Clock.after, if_neg htook] at hover
          omega
      have hbeyond : limit < Clock.after s.now e.took := by omega
      exact ⟨x, List.mem_singleton_self x, id, argv, user, workdir, rfl, e, hmem, hargv, htook,
        hbeyond⟩

/-- A copy takes no time. -/
theorem paces_copy (id : String) (p : Payload) : Paces limit 0 (copy id p) :=
  (paces_note fun _ => rfl).then fun _ => .of_stage fun _ =>
    (paces_failIf _).then fun _ => paces_note fun _ => rfl

end

end World.Act

end Slipway
