import Slipway.Readiness.Evaluation

/-!
# `Slipway.Proofs.Readiness.Looks`: what a wait looks at

Of a box a wait looks at the log and the healthcheck, and of a world at the URLs, and at nothing
else. Two boxes that agree in these are alike to it (`World.Box.LooksLike`), and so every wait goes
in the one as in the other (`waitAll_of_looksLike`). The kinds of wait that poll go by induction on
their own recursion. -/

set_option autoImplicit false

namespace Slipway

/-- A box that shows the waits what another does. -/
structure World.Box.LooksLike (b b' : World.Box) : Prop where
  logsFault : b'.logsFault = b.logsFault
  logs : b'.logs = b.logs
  logEnd : b'.logEnd = b.logEnd
  logEndFault : b'.logEndFault = b.logEndFault
  health : b'.health = b.health

namespace World.Box.LooksLike

variable {b b' : World.Box}

/-- Boxes that look alike have written the same. -/
theorem written (h : b.LooksLike b') (stream : Stream) (since : Option Int) :
    b'.written stream since = b.written stream since := by
  unfold Box.written
  rw [h.logs]

/-- They have the same status. -/
theorem healthAt (h : b.LooksLike b') (now : Int) : b'.healthAt now = b.healthAt now := by
  unfold Box.healthAt
  rw [h.health]

end World.Box.LooksLike

/-- What a URL answers is told by the URLs of a world. -/
theorem World.replyAt_congr {w w' : World} (h : w'.http = w.http) (url : String) (now : Int) :
    w'.replyAt url now = w.replyAt url now := by
  unfold World.replyAt
  rw [h]

namespace Readiness

variable {scene : Scene} {b : World.Box} {w : World}

/-- So waits for the log are the same. -/
theorem Log.wait_of_looksLike (h : scene.box.LooksLike b) (m : LogMessage) :
    Log.wait { scene with box := b, world := w } m = Log.wait scene m := by
  funext d now
  have hverdict : Log.verdict { scene with box := b, world := w } m d now =
      Log.verdict scene m d now := by
    unfold Log.verdict Log.ended
    simp only [h.written, h.logEnd, h.logEndFault]
  unfold Log.wait
  simp only [h.logsFault, hverdict]

/-- So are waits for the healthcheck. -/
theorem Health.wait_of_looksLike (h : scene.box.LooksLike b) (d : Deadline) (now : Int) :
    Health.wait { scene with box := b, world := w } d now = Health.wait scene d now := by
  -- The induction is on the questions, each of which gets the same answer in both boxes.
  fun_induction Health.wait scene d now with
  | case1 now asked e he =>
    rw [Health.wait, h.healthAt, he]
  | case2 now asked hnone =>
    rw [Health.wait, h.healthAt, hnone]
  | case3 now asked status hstatus ih =>
    rw [Health.wait, h.healthAt, hstatus]
    simp only [asked]
    split
    · rfl
    · split
      · rfl
      · rename_i hexp
        split
        · rename_i hnext
          rw [ih hexp hnext]
        · rfl

/-- A wait for an answer looks at no box at all. -/
theorem Http.poll_of_http (hhttp : w.http = scene.world.http) (p : HttpProbe) (url : String)
    (d : Deadline) (now : Int) :
    Http.poll { scene with box := b, world := w } p url d now = Http.poll scene p url d now := by
  -- Along the requests: each gets the same answer, as only the server answers.
  fun_induction Http.poll scene p url d now with
  | case1 now hexp => rw [Http.poll, dif_pos hexp]
  | case2 now hexp limit met ih =>
    have hmet : Http.meet p (scene.world.replyAt url now) (Http.timeout scene.settings d now) now
        = met := rfl
    rw [Http.poll, dif_neg hexp]
    simp only [World.replyAt_congr hhttp, hmet]
    congr 1
    split
    · rfl
    · rfl
    · split
      · rename_i hnext
        rw [ih hnext]
      · rfl

/-- Waits for an endpoint depend on the server only. -/
theorem Http.wait_of_http (hhttp : w.http = scene.world.http) (p : HttpProbe) :
    Http.wait { scene with box := b, world := w } p = Http.wait scene p := by
  funext d now
  unfold Http.wait
  simp only [Http.poll_of_http hhttp]

mutual

/-- A wait goes in a box as it goes in one that looks the same. -/
theorem wait_of_looksLike (h : scene.box.LooksLike b) (hhttp : w.http = scene.world.http)
    (c : Condition) : wait { scene with box := b, world := w } c = wait scene c := by
  cases c with
  | log m => exact Log.wait_of_looksLike h m
  | http p => exact congrArg (described (.http p)) (Http.wait_of_http hhttp p)
  | delay millis => rfl
  | healthcheck => exact funext fun d => funext (Health.wait_of_looksLike h d)
  | all members =>
    exact congrArg (fun ms => described (.all members) (waitForAll ms))
      (waits_of_looksLike h hhttp members)
  | foreign label => rfl

/-- So all waits are the same, with the same server. -/
theorem waits_of_looksLike (h : scene.box.LooksLike b) (hhttp : w.http = scene.world.http)
    (cs : List Condition) : waits { scene with box := b, world := w } cs = waits scene cs := by
  cases cs with
  | nil => rfl
  | cons c rest => rw [waits, waits, wait_of_looksLike h hhttp c, waits_of_looksLike h hhttp rest]

end

/-- So are conditions that are waited for together. -/
theorem waitAll_of_looksLike (h : scene.box.LooksLike b) (hhttp : w.http = scene.world.http)
    (cs : List Condition) : waitAll { scene with box := b, world := w } cs = waitAll scene cs :=
  congrArg waitForAll (waits_of_looksLike h hhttp cs)

end Readiness
end Slipway
