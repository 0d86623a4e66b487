import Mathlib.Data.List.TakeWhile
import Slipway.Proofs.Deadline
import Slipway.Proofs.Scanner
import Slipway.Readiness.Evaluation

/-!
# `Slipway.Proofs.Readiness.Reading`: a wait for a message sees exactly the log since the start

The pieces that count are those of the message's stream that were written since the container was
started. `said` are their bytes, one after the other, and `readableFrom` is the moment from which
all of them can be read. A piece is only read after those before it, so of the pieces a wait hears
those at the front that are all written before it gives up.

`Completes` picks the shortest beginning in which the message is. Reading piece by piece stops at
its last piece (`read_eq_found`): the scanner that reads them has been fed what was said so far
(`Scanner.fed`), and the induction is on the pieces that are left.

`wait_reads_log` puts this together with the deadline. The wait ends well iff the message is in what
it hears, and then as soon as the shortest beginning can be read. Else it ends when the stream does,
or when it gives up, which is when the deadline expires but for the overshoot of one timed wait. -/

set_option autoImplicit false

namespace Slipway.Readiness

namespace Log

open Slipway.Text.Utf8 (Bytes)
open Slipway.World (Chunk)

/-- The bytes of some pieces, one after the other. -/
def said (pieces : List Chunk) : Bytes := (pieces.map Chunk.data).flatten

/-- The moment from which all of some pieces can be read, by somebody who reads from a moment on. -/
def readableFrom (now : Int) (pieces : List Chunk) : Int :=
  pieces.foldl (fun t c => max t c.time) now

/-- The shortest beginning of some pieces in which a pattern is. -/
structure Completes (pattern : Bytes) (pieces shortest : List Chunk) : Prop where
  beginning : shortest <+: pieces
  complete : pattern <:+: said shortest
  least : ∀ shorter, shorter <+: shortest → pattern <:+: said shorter → shorter = shortest

section
variable {pieces before : List Chunk} {now limit : Int}

/-- What is said in pieces is said one after the other. -/
theorem said_append (before after : List Chunk) :
    said (before ++ after) = said before ++ said after := by
  simp [said]

/-- What the first pieces say is said by all of them. -/
theorem said_infix_said (h : before <+: pieces) : said before <:+: said pieces := by
  obtain ⟨after, rfl⟩ := h
  rw [said_append]
  exact (List.prefix_append _ _).isInfix

/-- Pieces can be read when the wait has begun and all of them are there. -/
theorem readableFrom_le_iff {t : Int} :
    readableFrom now pieces ≤ t ↔ now ≤ t ∧ ∀ c ∈ pieces, c.time ≤ t := by
  induction pieces generalizing now with
  | nil => simp [readableFrom]
  | cons c rest ih =>
    have hstep : readableFrom now (c :: rest) = readableFrom (max now c.time) rest := rfl
    rw [hstep, ih]
    simp only [List.mem_cons, forall_eq_or_imp, Int.max_le, and_assoc]

/-- They can be read before a limit if all of that comes before it. -/
theorem readableFrom_lt_iff :
    readableFrom now pieces < limit ↔ now < limit ∧ ∀ c ∈ pieces, c.time < limit := by
  have hle : readableFrom now pieces ≤ limit - 1 ↔ now ≤ limit - 1 ∧
      ∀ c ∈ pieces, c.time ≤ limit - 1 :=
    readableFrom_le_iff
  simp only [Int.le_sub_one_iff] at hle
  exact hle

/-- Pieces that were all written before somebody began to read are readable at once. -/
theorem readableFrom_eq_self (h : ∀ c ∈ pieces, c.time ≤ now) : readableFrom now pieces = now := by
  have hle : readableFrom now pieces ≤ now := readableFrom_le_iff.mpr ⟨Int.le_refl now, h⟩
  have hge := (readableFrom_le_iff.mp (Int.le_refl (readableFrom now pieces))).1
  omega

/-- The more pieces there are, the later all of them can be read. -/
theorem readableFrom_mono (now : Int) (h : before <+: pieces) :
    readableFrom now before ≤ readableFrom now pieces := by
  obtain ⟨hnow, hall⟩ := readableFrom_le_iff.mp (Int.le_refl (readableFrom now pieces))
  exact readableFrom_le_iff.mpr ⟨hnow, fun c hc => hall c (h.subset hc)⟩

/-- A beginning is heard iff all of it is written before the limit. -/
theorem prefix_takeWhile_iff (h : before <+: pieces) :
    before <+: pieces.takeWhile (·.time < limit) ↔ ∀ c ∈ before, c.time < limit := by
  constructor
  · intro hheard c hc
    simpa using List.mem_takeWhile_imp (hheard.subset hc)
  · intro hall
    obtain ⟨after, rfl⟩ := h
    rw [List.takeWhile_append_of_pos (by simpa using hall)]
    exact List.prefix_append _ _

end

/-! ### Reading -/

section
variable {pattern seen : Bytes} {pieces : List Chunk}

/-- Pieces that complete a pattern do so with their last one, if those before it do not. -/
theorem completes_concat {before : List Chunk} {c : Chunk} (hpieces : before ++ [c] <+: pieces)
    (hbefore : ¬ pattern <:+: said before) (hlast : pattern <:+: said (before ++ [c])) :
    Completes pattern pieces (before ++ [c]) where
  beginning := hpieces
  complete := hlast
  least := by
    intro shorter hshorter hin
    rcases List.prefix_concat_iff.mp hshorter with heq | hproper
    · exact heq
    · exact absurd (hin.trans (said_infix_said hproper)) hbefore

/-- A pattern that is completed too late is not in what is heard. -/
theorem not_heard_of_late {before : List Chunk} {c : Chunk} {now limit : Int} (hnow : now < limit)
    (hpieces : before ++ [c] <+: pieces) (hbefore : ¬ pattern <:+: said before)
    (hlate : ¬ readableFrom now (before ++ [c]) < limit) :
    ¬ pattern <:+: said (pieces.takeWhile (·.time < limit)) := by
  have hunheard : ¬ before ++ [c] <+: pieces.takeWhile (·.time < limit) := by
    intro hheard
    exact hlate (readableFrom_lt_iff.mpr ⟨hnow, (prefix_takeWhile_iff hpieces).mp hheard⟩)
  intro hin
  -- What is heard ends before the last piece, and the pattern is not in what comes before that.
  rcases List.prefix_or_prefix_of_prefix (List.takeWhile_prefix _) hpieces with hshort | hlong
  · rcases List.prefix_concat_iff.mp hshort with heq | hproper
    · exact hunheard (heq ▸ List.prefix_refl _)
    · exact hbefore (hin.trans (said_infix_said hproper))
  · exact hunheard hlong

/-- A scanner that was fed some bytes finds the pattern when it can read the piece that completes
it. -/
theorem read_eq_found (h : pattern ≠ []) (now : Int) (hseen : ¬ pattern <:+: seen)
    (hin : pattern <:+: seen ++ said pieces) :
    ∃ before c, before ++ [c] <+: pieces ∧ ¬ pattern <:+: seen ++ said before ∧
      pattern <:+: seen ++ said (before ++ [c]) ∧
      read (Scanner.fed h seen) now pieces = .found (readableFrom now (before ++ [c])) := by
  -- By the pieces: what was seen grows, and the first piece that completes the text is the last one
  -- read.
  induction pieces generalizing seen now with
  | nil =>
    rw [said, List.map_nil, List.flatten_nil, List.append_nil] at hin
    exact absurd hin hseen
  | cons c rest ih =>
    have hsaid : ∀ ps, seen ++ said (c :: ps) = seen ++ c.data ++ said ps := by
      intro ps
      simp [said]
    by_cases hpiece : pattern <:+: seen ++ c.data
    · refine ⟨[], c, List.prefix_append [c] rest, by simpa [said] using hseen, by simpa [said], ?_⟩
      simp only [read, Scanner.feed_eq_found hseen hpiece]
      rfl
    · rw [hsaid] at hin
      obtain ⟨before, c', hrest, hbefore, hlast, hread⟩ := ih (max now c.time) hpiece hin
      refine ⟨c :: before, c', List.cons_prefix_cons.mpr ⟨rfl, hrest⟩, ?_, ?_, ?_⟩
      · rwa [hsaid]
      · rwa [List.cons_append, hsaid]
      · simp only [read, Scanner.feed_eq_fed hpiece]
        exact hread

/-- A scanner in whose stream the pattern never comes reads all of it. -/
theorem read_eq_exhausted (h : pattern ≠ []) (now : Int)
    (hin : ¬ pattern <:+: seen ++ said pieces) :
    read (Scanner.fed h seen) now pieces = .exhausted (readableFrom now pieces) := by
  induction pieces generalizing seen now with
  | nil => rfl
  | cons c rest ih =>
    have hsaid : seen ++ said (c :: rest) = seen ++ c.data ++ said rest := by simp [said]
    rw [hsaid] at hin
    have hpiece : ¬ pattern <:+: seen ++ c.data := Scanner.not_infix_of_append hin
    simp only [read, Scanner.feed_eq_fed hpiece]
    exact ih (max now c.time) hin

end

/-! ### Waiting -/

section
variable {scene : Scene} {m : LogMessage} {d : Deadline} {now : Int}

/-- The pieces that count: those of the message's stream since the container was started. -/
def relevant (scene : Scene) (m : LogMessage) : List Chunk :=
  scene.box.written m.stream (scene.container.startedAt.map World.millisOf)

/-- When somebody who reads from a moment on sees that the stream has ended, if it ever does. -/
def closing (scene : Scene) (m : LogMessage) (now : Int) : Option Int :=
  (scene.box.logEnd.lookup m.stream).map (max (readableFrom now (relevant scene m)))

/-- The bytes of the message's text. -/
def sought (m : LogMessage) : Bytes := Text.Utf8.ofString m.text

/-- A scanner for a text has seen nothing yet. -/
theorem ofText_eq_fed : Scanner.ofText m.text m.text_ne =
    Scanner.fed (Text.Utf8.ofString_ne_nil m.text_ne) [] :=
  Scanner.start_eq_fed _

/-- The text that is sought is not empty. -/
theorem not_sought_nil : ¬ sought m <:+: [] :=
  Scanner.not_infix_nil (Text.Utf8.ofString_ne_nil m.text_ne)

/-- A stream in which the message is tells so when it completes it. -/
theorem verdict_found (d : Deadline) (now : Int) (hin : sought m <:+: said (relevant scene m)) :
    ∃ before c, before ++ [c] <+: relevant scene m ∧ ¬ sought m <:+: said before ∧
      sought m <:+: said (before ++ [c]) ∧
      verdict scene m d now = some (readableFrom now (before ++ [c]), none) := by
  obtain ⟨before, c, hpieces, hbefore, hlast, hread⟩ :=
    read_eq_found (Text.Utf8.ofString_ne_nil m.text_ne) now not_sought_nil hin
  refine ⟨before, c, hpieces, hbefore, hlast, ?_⟩
  rw [← ofText_eq_fed, relevant] at hread
  rw [verdict, hread]

/-- A stream in which it is not only tells that it has ended. -/
theorem verdict_exhausted (d : Deadline) (now : Int) (hend : scene.box.logEndFault = none)
    (hin : ¬ sought m <:+: said (relevant scene m)) :
    verdict scene m d now = (closing scene m now).map fun t =>
      (t, some (unmet m.describe d (some (m.stream.name ++ " closed before match")))) := by
  have hread := read_eq_exhausted (Text.Utf8.ofString_ne_nil m.text_ne) now
    (show ¬ sought m <:+: [] ++ said (relevant scene m) from hin)
  rw [← ofText_eq_fed, relevant] at hread
  -- The stream ends without a fault of its own, so its end is told as the reason.
  have hended : ∀ t, ended scene m d t =
      (t, some (unmet m.describe d (some (m.stream.name ++ " closed before match")))) := fun t => by
    rw [ended, hend]
  rw [verdict, hread, closing, Option.map_map]
  simp only [hended]
  rfl

/-- What the stream tells in time is how the wait ends. -/
theorem wait_of_verdict {t : Int} {fault : Option Fault} (hopen : scene.box.logsFault = none)
    (hverdict : verdict scene m d now = some (t, fault)) (ht : t < d.givesUp now) :
    (wait scene m d now).stop = t ∧ (wait scene m d now).fault = fault := by
  simp only [wait, hopen, hverdict, if_pos ht]
  exact ⟨rfl, rfl⟩

/-- A stream that tells nothing in time is given up. -/
theorem wait_of_late (hopen : scene.box.logsFault = none)
    (hlate : ∀ v, verdict scene m d now = some v → d.givesUp now ≤ v.1) :
    (wait scene m d now).stop = d.givesUp now ∧
      (wait scene m d now).fault = some (unmet m.describe d none) := by
  cases hverdict : verdict scene m d now with
  | none =>
    simp only [wait, hopen, hverdict]
    exact ⟨rfl, rfl⟩
  | some v =>
    have hle : ¬ v.1 < d.givesUp now := Int.not_lt.mpr (hlate v hverdict)
    simp only [wait, hopen, hverdict, if_neg hle]
    exact ⟨rfl, rfl⟩

/-- The pieces that are read before a wait gives up. -/
def heard (scene : Scene) (m : LogMessage) (limit : Int) : List Chunk :=
  (relevant scene m).takeWhile (·.time < limit)

/-- A wait that has heard its text ends well when it can be read. -/
theorem wait_of_heard (hopen : scene.box.logsFault = none) (hnow : now < d.givesUp now)
    (hin : sought m <:+: said (heard scene m (d.givesUp now))) :
    (wait scene m d now).fault = none ∧
      ∃ shortest, Completes (sought m) (heard scene m (d.givesUp now)) shortest ∧
        (wait scene m d now).stop = readableFrom now shortest := by
  have hwhole : sought m <:+: said (relevant scene m) :=
    hin.trans (said_infix_said (List.takeWhile_prefix _))
  obtain ⟨before, c, hpieces, hbefore, hlast, hverdict⟩ := verdict_found d now hwhole
  have htime : readableFrom now (before ++ [c]) < d.givesUp now := by
    -- Too late for the limit, the text would not be among what is heard.
    by_contra hlate
    exact not_heard_of_late hnow hpieces hbefore hlate hin
  obtain ⟨hstop, hfault⟩ := wait_of_verdict hopen hverdict htime
  have hheard : before ++ [c] <+: heard scene m (d.givesUp now) :=
    (prefix_takeWhile_iff hpieces).mpr (readableFrom_lt_iff.mp htime).2
  exact ⟨hfault, before ++ [c], completes_concat hheard hbefore hlast, hstop⟩

/-- A wait that has not heard its text fails when the stream is closed or the wait gives up. -/
theorem wait_of_unheard (hopen : scene.box.logsFault = none) (hend : scene.box.logEndFault = none)
    (hin : ¬ sought m <:+: said (heard scene m (d.givesUp now))) :
    ∃ reason, (wait scene m d now).fault = some (unmet m.describe d reason) ∧
      (reason = some (m.stream.name ++ " closed before match") ∧
          closing scene m now = some (wait scene m d now).stop ∧
          (wait scene m d now).stop < d.givesUp now ∨
        reason = none ∧ (wait scene m d now).stop = d.givesUp now ∧
          ∀ t, closing scene m now = some t → d.givesUp now ≤ t) := by
  by_cases hwhole : sought m <:+: said (relevant scene m)
  · -- The message comes too late, and so does the end of the stream after it.
    obtain ⟨before, c, hpieces, hbefore, hlast, hverdict⟩ :=
      verdict_found d now hwhole
    have hcomplete : d.givesUp now ≤ readableFrom now (before ++ [c]) := by
      by_contra hearly
      have htime : readableFrom now (before ++ [c]) < d.givesUp now := by omega
      have hheard : before ++ [c] <+: heard scene m (d.givesUp now) :=
        (prefix_takeWhile_iff hpieces).mpr (readableFrom_lt_iff.mp htime).2
      exact hin (hlast.trans (said_infix_said hheard))
    have hlate : ∀ v, verdict scene m d now = some v → d.givesUp now ≤ v.1 := by
      intro v hv
      rw [hverdict, Option.some.injEq] at hv
      exact hv ▸ hcomplete
    obtain ⟨hstop, hfault⟩ := wait_of_late hopen hlate
    refine ⟨none, hfault, .inr ⟨rfl, hstop, fun t ht => ?_⟩⟩
    obtain ⟨ends, -, rfl⟩ := Option.map_eq_some_iff.mp ht
    have hmono := readableFrom_mono now hpieces
    omega
  · have hverdict := verdict_exhausted d now hend hwhole
    by_cases hearly : ∃ t, closing scene m now = some t ∧ t < d.givesUp now
    · obtain ⟨t, hclosing, ht⟩ := hearly
      rw [hclosing, Option.map_some] at hverdict
      obtain ⟨hstop, hfault⟩ := wait_of_verdict hopen hverdict ht
      exact ⟨_, hfault, .inl ⟨rfl, hstop ▸ hclosing, hstop ▸ ht⟩⟩
    · have hlate : ∀ t, closing scene m now = some t → d.givesUp now ≤ t := by
        intro t hclosing
        by_contra ht
        exact hearly ⟨t, hclosing, by omega⟩
      have hsilent : ∀ v, verdict scene m d now = some v → d.givesUp now ≤ v.1 := by
        intro v hv
        rw [hverdict] at hv
        obtain ⟨t, hclosing, rfl⟩ := Option.map_eq_some_iff.mp hv
        exact hlate t hclosing
      obtain ⟨hstop, hfault⟩ := wait_of_late hopen hsilent
      exact ⟨none, hfault, .inr ⟨rfl, hstop, hlate⟩⟩

end

end Log

/-- A wait that nobody cancels gives up when its deadline expires, but for the overshoot. -/
theorem givesUp_bounds {d : Deadline} {now : Int} (hd : d.cancelledFrom = none)
    (hleft : ¬ d.isExpired now = true) :
    d.expiry ≤ d.givesUp now ∧ d.givesUp now ≤ d.expiry + Clock.overshoot := by
  obtain ⟨hpos, hrest⟩ := Deadline.remaining_eq hleft
  have hlate := d.givesUp_le now
  have hslices := Deadline.add_le_slicesEnd now (d.remaining now)
  have hgives : d.givesUp now = Deadline.slicesEnd now (d.remaining now) := by
    rw [Deadline.givesUp_of_uncancelled hd, if_neg (by omega)]
  constructor <;> omega

open Log

/-- A wait for a message ends well iff the message is in the pieces since the start that it hears,
which are those that can be read before it gives up. Then it ends as soon as the shortest beginning
with the message can be read. Else it ends when the stream has ended, or when it gives up. -/
theorem wait_reads_log (scene : Scene) (m : LogMessage) (d : Deadline) (now : Int)
    (hopen : scene.box.logsFault = none) (hend : scene.box.logEndFault = none)
    (hd : d.cancelledFrom = none) (hleft : ¬ d.isExpired now = true) :
    let limit := d.givesUp now
    let e := wait scene (.log m) d now
    (d.expiry ≤ limit ∧ limit ≤ d.expiry + Clock.overshoot) ∧
    (e.fault = none ↔ sought m <:+: said (heard scene m limit)) ∧
    (e.fault = none → ∃ shortest, Completes (sought m) (heard scene m limit) shortest ∧
      e.stop = readableFrom now shortest ∧ ((∀ c ∈ shortest, c.time ≤ now) → e.stop = now)) ∧
    (e.fault ≠ none → ∃ reason, e.fault = some (unmet m.describe d reason) ∧
      (reason = some (m.stream.name ++ " closed before match") ∧
          closing scene m now = some e.stop ∧ e.stop < limit ∨
        reason = none ∧ e.stop = limit ∧ ∀ t, closing scene m now = some t → limit ≤ t)) := by
  intro limit e
  have hbounds : d.expiry ≤ limit ∧ limit ≤ d.expiry + Clock.overshoot := givesUp_bounds hd hleft
  have hnow : now < limit := by
    have hexpiry := Deadline.lt_expiry_of_not_expired hleft
    omega
  refine ⟨hbounds, ?_⟩
  -- What is heard before the limit has the text, or it has not.
  by_cases hin : sought m <:+: said (heard scene m limit)
  · obtain ⟨hfault, shortest, hshortest, hstop⟩ := wait_of_heard hopen hnow hin
    refine ⟨iff_of_true hfault hin, fun _ => ⟨shortest, hshortest, hstop, fun hall => ?_⟩,
      fun hno => absurd hfault hno⟩
    exact hstop.trans (readableFrom_eq_self hall)
  · have hending := wait_of_unheard hopen hend hin
    have hfault : e.fault ≠ none := by
      obtain ⟨reason, hreason, -⟩ := hending
      exact fun hnone => Option.some_ne_none _ (hreason.symm.trans hnone)
    exact ⟨iff_of_false hfault hin, fun hnone => absurd hnone hfault, fun _ => hending⟩

/-- Of the text `ready` the first half was logged before the start, and the other stream is noisy
between two pieces. Only the pieces since the start complete it, and it is found when the second is
written. -/
theorem wait_reads_log_of_halves :
    let piece : Nat → Stream → String → World.Chunk := fun millis stream text =>
      ⟨millis * Clock.millisecond, stream, Text.Utf8.ofString text⟩
    let box : World.Box := { World.Box.quiet with
      logs := [piece 100 .stdout "rea", piece 200 .stdout "dy\nre", piece 300 .stderr "ady",
        piece 400 .stdout "ady\n"] }
    let scene : Scene :=
      ⟨⟨"c", "localhost", [], some (World.timestampOf 200)⟩, box, World.quiet, Settings.usual⟩
    let now := 250 * Clock.millisecond
    let d := Deadline.start now (Binary64.ofNat 1)
    let e := wait scene (.log ⟨.stdout, "ready", by decide⟩) d now
    (box.logsFault = none ∧ box.logEndFault = none ∧ d.cancelledFrom = none ∧
      ¬ d.isExpired now = true) ∧
    e.fault = none ∧ e.stop = 400 * Clock.millisecond := by
  intro piece box scene now d e
  have hleft : ¬ d.isExpired now = true := by decide +kernel
  have hreads := wait_reads_log scene ⟨.stdout, "ready", by decide⟩ d now rfl rfl rfl hleft
  -- The first half is too old, but the whole comes in later pieces of the same stream.
  have hheard : sought ⟨.stdout, "ready", by decide⟩ <:+:
      said (heard scene ⟨.stdout, "ready", by decide⟩ (d.givesUp now)) := by decide +kernel
  refine ⟨⟨rfl, rfl, rfl, hleft⟩, hreads.2.1.mpr hheard, ?_⟩
  show e.stop = 400 * Clock.millisecond
  decide +kernel

end Slipway.Readiness
