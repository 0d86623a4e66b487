import Slipway.Proofs.Readiness.Punctual

/-!
# `Slipway.Proofs.Readiness.Foresight`: no wait foresees a cancellation

Cancellations are known in advance here, as moments, but a wait must not make use of that. Two
deadlines agree until a moment if they expire together and nothing cancels the one before that
moment that does not cancel the other (`Deadline.AgreesUntil`). A wait that ends before that moment
ends in the same way against either of them: `wait_congr`.

So what the members of a group come to until one of them decides it does not depend on what they
would come to later. `Group.first_of_cancelMoment` states it of the member that has its group
cancelled: it comes to the same whether the group is cancelled after it or not. -/

set_option autoImplicit false

namespace Slipway

/-! ### Deadlines that agree -/

namespace Deadline

variable {c now t : Int} {a b a' b' : Option Int} {d d' : Deadline}

/-- Whether two moments cannot be told apart before a third: at no time has one of them come and the
other has not. -/
def AlikeUntil (c : Int) (a b : Option Int) : Prop := ∀ t < c, hasCome a t = hasCome b t

/-- Whether a moment comes no earlier than another, if at all. -/
def IsFrom (c : Int) (a : Option Int) : Prop := ∀ t, a = some t → c ≤ t

/-- Being alike until a moment is symmetric. -/
theorem AlikeUntil.symm (h : AlikeUntil c a b) : AlikeUntil c b a := fun t ht => (h t ht).symm

/-- Every moment is like itself. -/
theorem AlikeUntil.refl (c : Int) (a : Option Int) : AlikeUntil c a a := fun _ _ => rfl

/-- What is like a moment that comes later comes later too. -/
theorem AlikeUntil.isFrom (h : AlikeUntil c a b) (ha : IsFrom c a) : IsFrom c b := by
  rintro t rfl
  refine Int.not_lt.mp fun hlt => ?_
  have hcome : hasCome a t = true := (h t hlt).trans (by simp [hasCome])
  cases a with
  | none => cases hcome
  | some s =>
    have hs := ha s rfl
    simp only [hasCome, decide_eq_true_eq] at hcome
    omega

/-- Moments that cannot be told apart are the same, or neither comes in time. -/
theorem AlikeUntil.eq_or (h : AlikeUntil c a b) : a = b ∨ IsFrom c a ∧ IsFrom c b := by
  -- A moment before the bound is seen there, so the other one must be the same.
  by_cases ha : IsFrom c a
  · exact .inr ⟨ha, h.isFrom ha⟩
  · left
    simp only [IsFrom, not_forall, Int.not_le] at ha
    obtain ⟨s, rfl, hs⟩ := ha
    have hcome : hasCome b s = true := (h s hs).symm.trans (by simp [hasCome])
    cases b with
    | none => cases hcome
    | some t =>
      simp only [hasCome, decide_eq_true_eq] at hcome
      have hback : hasCome (some s) t = true := (h t (by omega)).trans (by simp [hasCome])
      simp only [hasCome, decide_eq_true_eq] at hback
      rw [Int.le_antisymm hback hcome]

/-- Moments that both come later are alike until then. -/
theorem AlikeUntil.of_isFrom (ha : IsFrom c a) (hb : IsFrom c b) : AlikeUntil c a b := by
  have hnever : ∀ {m : Option Int}, IsFrom c m → ∀ t < c, hasCome m t = false := by
    rintro (_ | s) hm t ht
    · rfl
    · have hs := hm s rfl
      simp only [hasCome, decide_eq_false_iff_not]
      omega
  exact fun t ht => (hnever ha t ht).trans (hnever hb t ht).symm

/-- So are the earlier ones of two pairs. -/
theorem AlikeUntil.earlier (h : AlikeUntil c a b) (h' : AlikeUntil c a' b') :
    AlikeUntil c (earlier a a') (earlier b b') := by
  intro t ht
  rw [hasCome_earlier, hasCome_earlier, h t ht, h' t ht]

/-- What comes no earlier than a moment cannot tell apart what the moment cannot. -/
theorem AlikeUntil.map (h : AlikeUntil c a b) {f : Int → Int} (hf : ∀ t, t ≤ f t) :
    AlikeUntil c (a.map f) (b.map f) := by
  have hfrom : ∀ {m : Option Int}, IsFrom c m → IsFrom c (m.map f) := by
    intro m hm t ht
    obtain ⟨s, hs, rfl⟩ := Option.map_eq_some_iff.mp ht
    exact Int.le_trans (hm s hs) (hf s)
  rcases h.eq_or with rfl | ⟨ha, hb⟩
  · exact .refl _ _
  · exact .of_isFrom (hfrom ha) (hfrom hb)

/-- The end of something that is cut short at a moment, if that comes. -/
def cut (natural : Int) : Option Int → Int
  | none => natural
  | some w => min natural w

/-- What ends before the bound is cut at the same moment. -/
theorem cut_congr {natural : Int} (h : AlikeUntil c a b) (hlt : cut natural a < c) :
    cut natural b = cut natural a := by
  rcases h.eq_or with rfl | ⟨ha, hb⟩
  · rfl
  · -- Neither comes in time, so the end is the natural one.
    have hnatural : ∀ {m : Option Int}, IsFrom c m → cut natural m = natural ∨
        c ≤ cut natural m := by
      rintro (_ | w) hm
      · exact .inl rfl
      · have hw := hm w rfl
        simp only [cut]
        omega
    have hcut : ∀ m : Option Int, cut natural m ≤ natural := by
      rintro (_ | w)
      · exact Int.le_refl natural
      · exact Int.min_le_left natural w
    have hends := (hnatural ha).resolve_right (by omega)
    rcases hnatural hb with hnat | hlate
    · rw [hnat, hends]
    · have := hcut b
      omega

/-- Two deadlines that differ at most in cancellations from a moment on. -/
structure AgreesUntil (c : Int) (d d' : Deadline) : Prop where
  total : d'.total = d.total
  expiry : d'.expiry = d.expiry
  cancel : AlikeUntil c d.cancel d'.cancel
  outerCancel : AlikeUntil c d.outerCancel d'.outerCancel

namespace AgreesUntil

variable (h : AgreesUntil c d d')

include h

/-- Agreement is symmetric. -/
theorem symm : AgreesUntil c d' d :=
  ⟨h.total.symm, h.expiry.symm, h.cancel.symm, h.outerCancel.symm⟩

/-- Deadlines that agree are cancelled alike until then. -/
theorem cancelledFrom : AlikeUntil c d.cancelledFrom d'.cancelledFrom :=
  h.cancel.earlier h.outerCancel

/-- Before the bound one is cancelled if the other is. -/
theorem isCancelled (ht : t < c) : d'.isCancelled t = d.isCancelled t :=
  (h.cancelledFrom t ht).symm

/-- Before the bound they leave the same time. -/
theorem remaining (ht : t < c) : d'.remaining t = d.remaining t := by
  rw [Deadline.remaining, Deadline.remaining, h.isCancelled ht, h.expiry]

/-- Before the bound one is expired if the other is. -/
theorem isExpired (ht : t < c) : d'.isExpired t = d.isExpired t := by
  rw [Deadline.isExpired, Deadline.isExpired, h.remaining ht]

/-- One that is over before the bound is over at the same moment as the other. -/
theorem overFrom (hlt : d.overFrom now < c) : d'.overFrom now = d.overFrom now := by
  have hle : d'.overFrom now ≤ d.overFrom now :=
    (isExpired_iff_overFrom_le (d.le_overFrom now)).mp
      ((h.isExpired hlt).trans (d.isExpired_overFrom now))
  have hge : d.overFrom now ≤ d'.overFrom now :=
    (isExpired_iff_overFrom_le (d'.le_overFrom now)).mp
      ((h.isExpired (Int.lt_of_le_of_lt hle hlt)).symm.trans (d'.isExpired_overFrom now))
  exact Int.le_antisymm hle hge

/-- A sleep that ends before the bound ends at the same moment under both. -/
theorem sleep {length : Int} (hlt : d.sleep now length < c) :
    d'.sleep now length = d.sleep now length := by
  have hnow : now < c := Int.lt_of_le_of_lt (d.le_sleep now length) hlt
  have hwake : AlikeUntil c (d.wake now) (d'.wake now) :=
    (h.cancel.map fun t => Int.le_max_right now t).earlier
      (h.outerCancel.map fun t => moment_le_seen now t)
  have hnap : d'.napEnd now length = d.napEnd now length := by
    rw [napEnd, napEnd, h.remaining hnow]
  -- The sleep is its natural length, cut at the moment of waking.
  have hcut : ∀ e : Deadline, e.sleep now length = cut (e.napEnd now length) (e.wake now) := by
    intro e
    rw [sleep_eq]
    cases e.wake now <;> rfl
  rw [hcut] at hlt
  rw [hcut, hcut, hnap]
  exact cut_congr hwake hlt

/-- A wait that gives up before the bound does so at the same moment under both. -/
theorem givesUp (hlt : d.givesUp now < c) : d'.givesUp now = d.givesUp now := by
  have hnow : now < c := Int.lt_of_le_of_lt (d.le_givesUp now) hlt
  -- The wait is a row of slices, cut at the moment at which the cancellation is seen.
  have hcut : ∀ e : Deadline, e.givesUp now =
      if e.remaining now = 0 then now + Clock.overshoot
      else cut (slicesEnd now (e.remaining now)) (e.cancelledFrom.map (seen now)) := by
    intro e
    unfold Deadline.givesUp
    cases e.cancelledFrom <;> rfl
  rw [hcut] at hlt
  rw [hcut, hcut, h.remaining hnow]
  split
  · rfl
  · rename_i hleft
    rw [if_neg hleft] at hlt
    exact cut_congr (h.cancelledFrom.map fun t => moment_le_seen now t) hlt

/-- Before the moment, it does not matter against which of the two a wait gives up. -/
theorem lt_givesUp_iff (ht : t < c) : t < d'.givesUp now ↔ t < d.givesUp now := by
  by_cases hlt : d.givesUp now < c
  · rw [h.givesUp hlt]
  · by_cases hlt' : d'.givesUp now < c
    · rw [h.symm.givesUp hlt']
    · omega

/-- Their children agree. -/
theorem child (hnow : now < c) : AgreesUntil c (d.child now) (d'.child now) where
  total := h.total
  expiry := congrArg (now + ·) (h.remaining hnow)
  cancel := .refl c none
  outerCancel := h.cancelledFrom

/-- So do they when both are cancelled at one moment. -/
theorem cancelAt (moment : Option Int) :
    AgreesUntil c (d.cancelAt moment) (d'.cancelAt moment) where
  total := h.total
  expiry := h.expiry
  cancel := h.cancel.earlier (.refl c moment)
  outerCancel := h.outerCancel

end AgreesUntil

/-- A deadline agrees with itself, cancelled, until it is cancelled. -/
theorem agreesUntil_cancelAt (d : Deadline) (c : Int) : AgreesUntil c d (d.cancelAt (some c)) where
  total := rfl
  expiry := rfl
  cancel := by
    intro t ht
    have hnot : hasCome (some c) t = false := by
      simp only [hasCome, decide_eq_false_iff_not]
      omega
    show hasCome d.cancel t = hasCome (earlier d.cancel (some c)) t
    rw [hasCome_earlier, hnot, Bool.or_false]
  outerCancel := .refl c _

end Deadline

namespace Readiness

variable {scene : Scene} {c now : Int} {d d' : Deadline}

/-! ### The kinds -/

/-- The failure names the total, which they share. -/
theorem unmet_congr (h : d'.total = d.total) (description : String) (reason : Option String) :
    unmet description d' reason = unmet description d reason := by
  rw [unmet, unmet, h]

/-- A delay that ends before the bound ends alike under deadlines that agree. -/
theorem Delay.wait_congr {millis : Nat} (h : d.AgreesUntil c d')
    (hstop : (Delay.wait millis d now).stop < c) :
    Delay.wait millis d' now = Delay.wait millis d now := by
  have hnow : now < c := Int.lt_of_le_of_lt (Delay.wait_asks "" millis d now).le_stop hstop
  unfold Delay.wait at hstop ⊢
  cases hlength : lengthOf millis with
  | error e => rfl
  | ok length =>
    simp only [hlength, Ending.after] at hstop ⊢
    -- However the delay ends, it ends with the sleep.
    have hsleep : d.sleep now length < c := by
      split at hstop
      · exact hstop
      · split at hstop <;> exact hstop
    simp only [h.sleep hsleep, h.remaining hnow, h.isCancelled hsleep, unmet_congr h.total]

/-- What the end of a stream tells is the same against either deadline, or told too late to matter.
-/
theorem Log.verdict_congr (h : d.AgreesUntil c d') (m : LogMessage) :
    Log.verdict scene m d' now = Log.verdict scene m d now ∨
      ∃ t f t' f', Log.verdict scene m d now = some (t, f) ∧
        Log.verdict scene m d' now = some (t', f') ∧ c ≤ t ∧ c ≤ t' := by
  unfold Log.verdict
  simp only
  split
  · exact .inl rfl
  · rename_i u hread
    cases scene.box.logEnd.lookup m.stream with
    | none => exact .inl rfl
    | some ends =>
      simp only [Option.map_some, Log.ended, unmet_congr h.total]
      split
      · exact .inl rfl
      · split
        · -- Where the stream ends in a timeout, the verdict falls when the deadline is over.
          by_cases hlt : d.overFrom (max u ends) < c
          · rw [h.overFrom hlt]
            exact .inl rfl
          · refine .inr ⟨_, _, _, _, rfl, rfl, Int.not_lt.mp hlt, Int.not_lt.mp fun hlt' => hlt ?_⟩
            rw [← h.symm.overFrom hlt'] at hlt'
            exact hlt'
        · exact .inl rfl

/-- A wait for the log that ends before the bound ends alike. -/
theorem Log.wait_congr {m : LogMessage} (h : d.AgreesUntil c d')
    (hstop : (Log.wait scene m d now).stop < c) :
    Log.wait scene m d' now = Log.wait scene m d now := by
  unfold Log.wait at hstop ⊢
  simp only [unmet_congr h.total, Ending.after] at hstop ⊢
  cases hlogs : scene.box.logsFault with
  | some e => rfl
  | none =>
    simp only [hlogs] at hstop ⊢
    rcases Log.verdict_congr h m with hverdict | ⟨t, f, t', f', hv, hv', ht, ht'⟩
    · rw [hverdict]
      cases hv : Log.verdict scene m d now with
      | some told =>
        simp only [hv] at hstop ⊢
        by_cases hlt : told.1 < d.givesUp now
        · -- What the stream tells in time is told in time against either deadline.
          rw [if_pos hlt] at hstop
          have hlt' := (h.lt_givesUp_iff hstop).mpr hlt
          rw [if_pos hlt, if_pos hlt']
        · rw [if_neg hlt] at hstop
          have hgives : d'.givesUp now = d.givesUp now := h.givesUp hstop
          rw [hgives]
      | none =>
        simp only [hv] at hstop
        have hgives : d'.givesUp now = d.givesUp now := h.givesUp hstop
        simp only [hgives]
    · -- A wait that is over before the moment has not been told anything then.
      simp only [hv, hv'] at hstop ⊢
      have hlt : ¬ t < d.givesUp now := by
        intro hlt
        rw [if_pos hlt] at hstop
        exact absurd hstop (Int.not_lt.mpr ht)
      rw [if_neg hlt] at hstop
      have hgives : d'.givesUp now = d.givesUp now := h.givesUp hstop
      have hlt' : ¬ t' < d'.givesUp now := fun hlt' =>
        absurd (Int.lt_trans hlt' (hgives ▸ hstop)) (Int.not_lt.mpr ht')
      rw [if_neg hlt, if_neg hlt', hgives]

/-- So does one for the healthcheck. -/
theorem Health.wait_congr (h : d.AgreesUntil c d') (hstop : (Health.wait scene d now).stop < c) :
    Health.wait scene d' now = Health.wait scene d now := by
  have hnow : now < c := Int.lt_of_le_of_lt (Health.wait_asks scene d now).le_stop hstop
  -- The induction is on the questions. All of them are asked before the moment.
  fun_induction Health.wait scene d now with
  | case1 now asked e he => rw [Health.wait, he]
  | case2 now asked hnone =>
    rw [Health.wait, hnone]
    simp only [unmet_congr h.total, asked]
  | case3 now asked status hstatus ih =>
    rw [Health.wait, hstatus]
    simp only [h.isExpired hnow, unmet_congr h.total, asked]
    split
    · rfl
    · rename_i hill
      split
      · rfl
      · rename_i hexp
        simp only [asked, Ending.after, if_neg hill, dif_neg hexp] at hstop
        split at hstop
        · rename_i hnext
          have hlast := (Health.wait_asks scene d
            (d.sleep now (Clock.ofSeconds scene.settings.healthPollInterval))).le_stop
          have hsleep := Int.lt_of_le_of_lt hlast hstop
          rw [h.sleep hsleep, dif_pos hnext, dif_pos hnext, ih hexp hnext hstop hsleep]
        · rename_i hnext
          have hsleep : d.sleep now (Clock.ofSeconds scene.settings.healthPollInterval) < c := by
            omega
          rw [h.sleep hsleep, dif_neg hnext, dif_neg hnext]

/-- So does a poll. -/
theorem Http.poll_congr {p : HttpProbe} {url : String} (h : d.AgreesUntil c d')
    (hstop : (Http.poll scene p url d now).stop < c) :
    Http.poll scene p url d' now = Http.poll scene p url d now := by
  have hnow : now < c := Int.lt_of_le_of_lt (Http.poll_asks scene p url d now).le_stop hstop
  fun_induction Http.poll scene p url d now with
  | case1 now hexp =>
    have hexp' : d'.isExpired now = true := by rw [h.isExpired hnow]; exact hexp
    rw [Http.poll_of_isExpired hexp', unmet_congr h.total]
  | case2 now hexp limit met ih =>
    have hexp' : ¬ d'.isExpired now = true := by rw [h.isExpired hnow]; exact hexp
    have hlimit : Http.timeout scene.settings d' now = limit := by
      rw [Http.timeout, h.remaining hnow]
      rfl
    have hfold : Http.meet p (scene.world.replyAt url now) limit now = met := rfl
    -- The request is the same against either deadline, and so is its answer.
    rw [Http.poll, dif_neg hexp']
    simp only [hlimit, hfold]
    simp only [Ending.after] at hstop
    congr 1
    cases hanswer : met.2 with
    | error e => rfl
    | ok answered =>
      cases answered with
      | true => rfl
      | false =>
        simp only [hanswer] at hstop ⊢
        split at hstop
        · rename_i hnext
          have hlast := (Http.poll_asks scene p url d
            (d.sleep met.1 (Http.interval p scene.settings))).le_stop
          have hsleep := Int.lt_of_le_of_lt hlast hstop
          rw [h.sleep hsleep, dif_pos hnext, dif_pos hnext, ih hnext hstop hsleep]
        · rename_i hnext
          have hsleep : d.sleep met.1 (Http.interval p scene.settings) < c := by omega
          rw [h.sleep hsleep, dif_neg hnext, dif_neg hnext]

/-- So does a wait for an endpoint. -/
theorem Http.wait_congr {p : HttpProbe} (h : d.AgreesUntil c d')
    (hstop : (Http.wait scene p d now).stop < c) :
    Http.wait scene p d' now = Http.wait scene p d now := by
  unfold Http.wait at hstop ⊢
  split
  · rfl
  · rename_i address haddress
    rw [haddress] at hstop
    exact Http.poll_congr h hstop

/-! ### Groups -/

namespace Group

/-- The earlier of two ends, and of that and a third, is the earliest of the three. -/
theorem earlier_assoc (a b e : Ending) : earlier (earlier a b) e = earlier a (earlier b e) := by
  unfold earlier
  grind

/-- The earliest of several is the first, or the earliest of the rest if that comes before. -/
theorem earliest?_cons (a : Ending) (ends : List Ending) :
    earliest? (a :: ends) = some (match earliest? ends with
      | none => a
      | some e => earlier a e) := by
  cases ends with
  | nil => rfl
  | cons b rest =>
    -- The fold may start with the first or end with it, as the earlier of two is associative.
    have hfold : ∀ (rest : List Ending) (b : Ending),
        rest.foldl earlier (earlier a b) = earlier a (rest.foldl earlier b) := by
      intro rest
      induction rest with
      | nil => exact fun b => rfl
      | cons e rest ih =>
        intro b
        rw [List.foldl_cons, List.foldl_cons, earlier_assoc, ih]
    exact congrArg some (hfold rest b)

/-- The earliest is one of them, and none ends before it. -/
theorem earliest?_spec {ends : List Ending} {e : Ending} (h : earliest? ends = some e) :
    e ∈ ends ∧ ∀ x ∈ ends, e.stop ≤ x.stop := by
  -- By the ends, as the earliest of the rest is known.
  induction ends generalizing e with
  | nil => cases h
  | cons a rest ih =>
    rw [earliest?_cons] at h
    cases hrest : earliest? rest with
    | none =>
      rw [hrest] at h
      cases h
      have hnil : rest = [] := by
        cases rest with
        | nil => rfl
        | cons b rest => cases hrest
      subst hnil
      exact ⟨List.mem_cons_self, fun x hx => Int.le_of_eq (by rw [List.mem_singleton.mp hx])⟩
    | some b =>
      rw [hrest] at h
      obtain ⟨hb, hle⟩ := ih hrest
      simp only [Option.some.injEq, earlier] at h
      split at h
      · subst h
        refine ⟨List.mem_cons_of_mem a hb, fun x hx => ?_⟩
        rcases List.mem_cons.mp hx with rfl | hx
        · omega
        · exact hle x hx
      · subst h
        refine ⟨List.mem_cons_self, fun x hx => ?_⟩
        rcases List.mem_cons.mp hx with rfl | hx
        · exact Int.le_refl _
        · have := hle x hx
          omega

/-- Before a moment, what is the earliest of an end and some others is told by what is the earliest
of the others before that moment. -/
theorem earliest?_cons_congr {a : Ending} (ha : a.stop < c) {ends ends' : List Ending}
    (h : ∀ e : Ending, e.stop < c → (earliest? ends' = some e ↔ earliest? ends = some e)) :
    earliest? (a :: ends') = earliest? (a :: ends) := by
  -- An end that precedes the first one comes before the moment, so it is the earliest of both
  -- lists.
  have hkeeps : ∀ {xs ys : List Ending}, (∀ e : Ending, e.stop < c →
      (earliest? ys = some e ↔ earliest? xs = some e)) → ∀ b, earliest? xs = some b →
      b.stop < a.stop → earliest? (a :: ys) = some b := by
    intro xs ys hxs b hb hlt
    rw [earliest?_cons, (hxs b (by omega)).mpr hb]
    simp only [earlier, if_pos hlt]
  have hfirst : ∀ {xs : List Ending}, (∀ b, earliest? xs = some b → ¬ b.stop < a.stop) →
      earliest? (a :: xs) = some a := by
    intro xs hxs
    rw [earliest?_cons]
    cases hb : earliest? xs with
    | none => rfl
    | some b => simp only [earlier, if_neg (hxs b hb)]
  by_cases hb : ∃ b, earliest? ends = some b ∧ b.stop < a.stop
  · obtain ⟨b, hb, hlt⟩ := hb
    rw [hkeeps h b hb hlt, hkeeps (fun _ _ => Iff.rfl) b hb hlt]
  · rw [hfirst fun b hb' hlt => hb ⟨b, (h b (by omega)).mp hb', hlt⟩,
      hfirst fun b hb' hlt => hb ⟨b, hb', hlt⟩]

/-- An end that comes too late is not the earliest, and might as well not be there. -/
theorem earliest?_cons_of_le {a e : Ending} (ha : c ≤ a.stop) (he : e.stop < c)
    (ends : List Ending) :
    earliest? (a :: ends) = some e ↔ earliest? ends = some e := by
  rw [earliest?_cons]
  -- The first comes too late to be the earliest.
  cases earliest? ends with
  | none =>
    simp only [Option.some.injEq, reduceCtorEq, iff_false]
    rintro rfl
    omega
  | some b =>
    simp only [Option.some.injEq, earlier]
    split
    · exact Iff.rfl
    · constructor <;> rintro rfl <;> omega

/-- Two lists of ends that differ at most in ends from a moment on have the same earliest end before
that moment. -/
theorem earliest?_congr {α : Type} {ending ending' : α → Ending} {p : Ending → Bool} {xs : List α}
    (h : ∀ x ∈ xs, ending' x = ending x ∨ c ≤ (ending x).stop ∧ c ≤ (ending' x).stop) {e : Ending}
    (he : e.stop < c) :
    earliest? ((xs.map ending').filter p) = some e ↔
      earliest? ((xs.map ending).filter p) = some e := by
  induction xs generalizing e with
  | nil => exact Iff.rfl
  | cons x rest ih =>
    have hrest : ∀ e : Ending, e.stop < c →
        (earliest? ((rest.map ending').filter p) = some e ↔
          earliest? ((rest.map ending).filter p) = some e) :=
      fun e he => ih (fun y hy => h y (List.mem_cons_of_mem x hy)) he
    -- What ends too late under either deadline may be left out under both.
    have hdrop : ∀ f : α → Ending, c ≤ (f x).stop →
        (earliest? (((x :: rest).map f).filter p) = some e ↔
          earliest? ((rest.map f).filter p) = some e) := by
      intro f hf
      rw [List.map_cons, List.filter_cons]
      split
      · exact earliest?_cons_of_le hf he _
      · exact Iff.rfl
    by_cases hlate : c ≤ (ending x).stop ∧ c ≤ (ending' x).stop
    · exact (hdrop ending' hlate.2).trans ((hrest e he).trans (hdrop ending hlate.1).symm)
    · have hx := (h x List.mem_cons_self).resolve_right hlate
      rw [List.map_cons, List.map_cons, List.filter_cons, List.filter_cons, hx]
      split
      · rw [earliest?_cons_congr (by rw [hx] at hlate; omega) hrest]
      · exact hrest e he

/-- Whether a wait does not foresee: it ends in the same way against deadlines that agree until it
has ended. -/
def Unforeseeing (m : Deadline → Int → Ending) : Prop :=
  ∀ (c : Int) (d d' : Deadline) (now : Int), d.AgreesUntil c d' → (m d now).stop < c →
    m d' now = m d now

/-- The deadline that the members of a group wait against: a child, cancelled if one of them decides
the group. -/
def deadlineOf (members : List (Deadline → Int → Ending)) (d : Deadline) (now : Int) : Deadline :=
  match cancelMoment (members.map fun m => m (d.child now) now) with
  | none => d.child now
  | some t => (d.child now).cancelAt (some t)

/-- Members share a child of the deadline, which the group may cancel. -/
theorem deadlineOf_eq (members : List (Deadline → Int → Ending)) (d : Deadline) (now : Int) :
    deadlineOf members d now =
      (d.child now).cancelAt (cancelMoment (members.map fun m => m (d.child now) now)) := by
  unfold deadlineOf
  cases cancelMoment (members.map fun m => m (d.child now) now) <;> rfl

/-- How the members of a group end. -/
def endings (members : List (Deadline → Int → Ending)) (d : Deadline) (now : Int) : List Ending :=
  members.map fun m => m (deadlineOf members d now) now

/-- A group joins the ends of its members under that deadline. -/
theorem wait_eq_join (members : List (Deadline → Int → Ending)) (d : Deadline) (now : Int) :
    wait members d now = join d now (endings members d now) := by
  unfold wait endings deadlineOf
  simp only
  cases cancelMoment (members.map fun m => m (d.child now) now) <;> rfl

/-- A group is cancelled by its earliest decisive member, unless that is an interrupt. -/
theorem cancelMoment_eq_some {ends : List Ending} {t : Int} (h : cancelMoment ends = some t) :
    ∃ e, earliest? (ends.filter isDecisive) = some e ∧ weigh e.fault ≠ .interrupt ∧
      t = e.stop + Clock.overshoot := by
  unfold cancelMoment at h
  split at h
  · cases h
  · rename_i e he
    split at h
    · cases h
    · rename_i hweigh
      cases h
      exact ⟨e, he, hweigh, rfl⟩

section
variable {members : List (Deadline → Int → Ending)}

/-- The member that has its group cancelled ends before that, and so as if it were not. -/
theorem first_of_cancelMoment (hmembers : ∀ m ∈ members, Unforeseeing m) {t : Int}
    (h : cancelMoment (members.map fun m => m (d.child now) now) = some t) :
    ∃ m ∈ members, isDecisive (m (d.child now) now) = true ∧
      earliest? ((members.map fun m => m (d.child now) now).filter isDecisive)
        = some (m (d.child now) now) ∧
      t = (m (d.child now) now).stop + Clock.overshoot ∧
      m ((d.child now).cancelAt (some t)) now = m (d.child now) now := by
  -- The decisive member ends before the cancellation, so it does not see it.
  obtain ⟨e, hearliest, -, ht⟩ := cancelMoment_eq_some h
  obtain ⟨hmem, hdecisive⟩ := List.mem_filter.mp (earliest?_spec hearliest).1
  obtain ⟨m, hm, rfl⟩ := List.mem_map.mp hmem
  have ho := Clock.overshoot_pos
  exact ⟨m, hm, hdecisive, hearliest, ht,
    hmembers m hm t _ _ now ((d.child now).agreesUntil_cancelAt t) (by omega)⟩

/-- Each member has its end under the deadline of the members. -/
theorem mem_endings {m : Deadline → Int → Ending} (hm : m ∈ members) {d₁ : Deadline}
    (h : deadlineOf members d now = d₁) : m d₁ now ∈ endings members d now := by
  rw [endings, h]
  exact List.mem_map_of_mem (f := fun m => m d₁ now) hm

/-- If all members end before a moment until which two deadlines agree, so do the deadlines that the
members have in the two groups. -/
theorem deadlineOf_agreesUntil (hmembers : ∀ m ∈ members, Unforeseeing m) (h : d.AgreesUntil c d')
    (hnow : now < c) (hends : ∀ e ∈ endings members d now, e.stop < c) :
    (deadlineOf members d now).AgreesUntil c (deadlineOf members d' now) := by
  have hchild : (d.child now).AgreesUntil c (d'.child now) := h.child hnow
  have halone : ∀ m ∈ members, m (d'.child now) now = m (d.child now) now ∨
      c ≤ (m (d.child now) now).stop ∧ c ≤ (m (d'.child now) now).stop := by
    intro m hm
    by_cases hlt : (m (d.child now) now).stop < c
    · exact .inl (hmembers m hm c _ _ now hchild hlt)
    · by_cases hlt' : (m (d'.child now) now).stop < c
      · exact .inl (hmembers m hm c _ _ now hchild.symm hlt').symm
      · exact .inr ⟨by omega, by omega⟩
  suffices hsame : cancelMoment (members.map fun m => m (d'.child now) now) =
      cancelMoment (members.map fun m => m (d.child now) now) by
    rw [deadlineOf_eq, deadlineOf_eq, hsame]
    exact hchild.cancelAt _
  cases hmoment : cancelMoment (members.map fun m => m (d.child now) now) with
  | none =>
    -- No member is cut short, so each ends in time, and the same against the other child.
    have hdeadline : deadlineOf members d now = d.child now := by
      rw [deadlineOf_eq, hmoment]
      rfl
    have hsame : (members.map fun m => m (d'.child now) now) =
        members.map fun m => m (d.child now) now := by
      refine List.map_congr_left fun m hm => (halone m hm).resolve_right fun hlate => ?_
      have hlt := hends _ (mem_endings hm hdeadline)
      omega
    rw [hsame, hmoment]
  | some t =>
    have hdeadline : deadlineOf members d now = (d.child now).cancelAt (some t) := by
      rw [deadlineOf_eq, hmoment]
    obtain ⟨m, hm, -, hearliest, ht, hsame⟩ := first_of_cancelMoment hmembers hmoment
    have hlt : (m (d.child now) now).stop < c := by
      rw [← hsame]
      exact hends _ (mem_endings hm hdeadline)
    -- The one that decides the group comes in time, so it is the same against the other child.
    have hearliest' := (earliest?_congr (p := isDecisive) halone hlt).mpr hearliest
    unfold cancelMoment at hmoment ⊢
    rw [hearliest] at hmoment
    rw [hearliest']
    exact hmoment

/-- A group that ends before the bound ends alike under deadlines that agree. -/
theorem wait_congr (hmembers : ∀ m ∈ members, Unforeseeing m) (h : d.AgreesUntil c d')
    (hnow : now < c) (hstop : (wait members d now).stop < c) :
    wait members d' now = wait members d now := by
  have hends : ∀ e ∈ endings members d now, e.stop < c := by
    intro e he
    rw [wait_eq_join] at hstop
    exact Int.lt_of_le_of_lt ((le_lastStop now _).2 e he) hstop
  -- The members wait against deadlines that agree, so they end in the same way, and that is the
  -- group.
  have hdeadline := deadlineOf_agreesUntil hmembers h hnow hends
  have hsame : endings members d' now = endings members d now :=
    List.map_congr_left fun m hm =>
      hmembers m hm c _ _ now hdeadline (hends _ (List.mem_map_of_mem hm))
  rw [wait_eq_join, wait_eq_join, hsame]
  unfold join settle
  rw [h.total]

end

end Group

/-! ### Trees -/

open Slipway.Readiness.Group (Unforeseeing)

/-- Conditions that are waited for together foresee nothing if none of them does. -/
theorem waitForAll_unforeseeing {id : String} {members : List (Deadline → Int → Ending)}
    (hasks : ∀ m ∈ members, ∀ d now, (m d now).Asks id now)
    (h : ∀ m ∈ members, Unforeseeing m) : Unforeseeing (waitForAll members) := by
  intro c d d' now hagree hstop
  have hnow := Int.lt_of_le_of_lt (waitForAll_asks hasks d now).le_stop hstop
  match members with
  | [] => rfl
  | [m] => exact h m (List.mem_singleton.mpr rfl) c d d' now hagree hstop
  | _ :: _ :: _ => exact Group.wait_congr h hagree hnow hstop

/-- A condition that is described first foresees nothing more. -/
theorem described_unforeseeing (cond : Condition) {w : Deadline → Int → Ending}
    (h : Unforeseeing w) : Unforeseeing (described cond w) := by
  intro c d d' now hagree hstop
  unfold described at hstop ⊢
  split
  · rename_i hwords
    rw [if_pos hwords] at hstop
    exact h c d d' now hagree hstop
  · rfl

mutual

/-- No wait foresees. -/
theorem wait_unforeseeing (scene : Scene) (cond : Condition) : Unforeseeing (wait scene cond) := by
  cases cond with
  | log m => exact fun c d d' now h hstop => Log.wait_congr h hstop
  | http p => exact described_unforeseeing _ fun c d d' now h hstop => Http.wait_congr h hstop
  | delay millis =>
    exact described_unforeseeing _ fun c d d' now h hstop => Delay.wait_congr h hstop
  | healthcheck => exact fun c d d' now h hstop => Health.wait_congr h hstop
  | all members =>
    exact described_unforeseeing _
      (waitForAll_unforeseeing (waits_ask scene members) (waits_unforeseeing scene members))
  | foreign label => exact fun c d d' now h hstop => rfl

/-- No condition foresees anything. -/
theorem waits_unforeseeing (scene : Scene) (cs : List Condition) :
    ∀ m ∈ waits scene cs, Unforeseeing m := by
  cases cs with
  | nil => intro m hm; simp [waits] at hm
  | cons c rest =>
    intro m hm
    simp only [waits, List.mem_cons] at hm
    rcases hm with rfl | hm
    · exact wait_unforeseeing scene c
    · exact waits_unforeseeing scene rest m hm

end

end Readiness
end Slipway
