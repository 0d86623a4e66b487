import Slipway.Proofs.Forest

/-!
# `Slipway.Proofs.Sleep`: how long a sleep lasts

A sleep is a loop. It looks whether the deadline is cancelled and whether the time is over, and else
waits for one interval or for what is left, whichever is less. The wait ends early when the deadline
itself is cancelled, and not when an ancestor of it is. `Dozes` is this loop, turn by turn. One turn
changes nothing about when the loop ends (`dozeEnd_pause`), and it takes time, so the loop ends when
`sleep` says (`dozes_iff`).

What remains is to bound that moment. The cancellation of the deadline itself cuts a sleep short at
once (`sleep_le_of_cancel`), that of an ancestor within a slice (`sleep_le_of_outerCancel`), and
nothing else does (`le_sleep_of_uncancelled`). In a forest these are cancellations of nodes from
which the deadline descends.

A deadline that is cancelled while it sleeps need not sleep until then: an ancestor that was
cancelled before may end the sleep first (`not_sleep_until_cancelled`). -/

set_option autoImplicit false

namespace Slipway.Deadline

/-! ### The loop -/

/-- When one wait of a sleep is over that is to end at a moment: after an interval or what is left,
or when the deadline itself is cancelled. -/
def pause (d : Deadline) (ending now : Int) : Int :=
  let natural := now + min (ending - now) interval + Clock.overshoot
  match d.cancel with
  | none => natural
  | some c => min natural (max now c)

/-- The loop of a sleep that is to end at a moment: from when it is at its head to when it ends. -/
inductive Dozes (d : Deadline) (ending : Int) : Int → Int → Prop where
  | cancelled {now : Int} (h : d.isCancelled now = true) : Dozes d ending now now
  | ended {now : Int} (h : ¬ d.isCancelled now = true) (hend : ending ≤ now) :
    Dozes d ending now now
  | turn {now u : Int} (h : ¬ d.isCancelled now = true) (hlt : now < ending)
      (rest : Dozes d ending (d.pause ending now) u) : Dozes d ending now u

/-- When the loop ends, if the deadline itself is not cancelled. -/
def lull (d : Deadline) (ending now : Int) : Int :=
  match d.outerCancel with
  | none => slicesEnd now (ending - now)
  | some o => min (slicesEnd now (ending - now)) (seen now o)

/-- When the loop ends. -/
def dozeEnd (d : Deadline) (ending now : Int) : Int :=
  match d.cancel with
  | none => d.lull ending now
  | some c => min (d.lull ending now) (max now c)

/-- A sleep is dozing until its natural end or the deadline. -/
theorem sleep_eq_dozeEnd (d : Deadline) (now length : Int) :
    d.sleep now length = d.dozeEnd (now + min length (d.remaining now)) now := by
  have hlength : now + min length (d.remaining now) - now = min length (d.remaining now) := by omega
  unfold sleep dozeEnd lull
  rw [hlength]
  -- Each cancellation may be set or not.
  cases d.cancel with
  | none => cases d.outerCancel <;> rfl
  | some c =>
    cases d.outerCancel with
    | none => rfl
    | some o =>
      simp only
      omega

section
variable {d : Deadline} {ending now o u : Int}

/-- What is left of a wait in slices after the first wait. -/
theorem slicesEnd_turn (h : now < ending) :
    slicesEnd now (ending - now) =
      slicesEnd (now + min (ending - now) interval + Clock.overshoot)
        (ending - (now + min (ending - now) interval + Clock.overshoot)) := by
  have hs : slice = 100000001000000000000 := by decide
  have hi : interval = 100000000000000000000 := by decide
  have ho : Clock.overshoot = 1000000000000 := by decide
  simp only [slicesEnd, hs, hi, ho]
  repeat' split
  all_goals omega

/-- A wait in slices takes no less than the first wait. -/
theorem first_le_slicesEnd (h : now < ending) :
    now + min (ending - now) interval + Clock.overshoot ≤ slicesEnd now (ending - now) := by
  rw [slicesEnd_turn h]
  exact le_slicesEnd _ _

/-- What has not come yet is seen at the next look, or at a later one. -/
theorem seen_turn (h : now < o) : seen now o = seen (now + slice) o ∧ now + slice ≤ seen now o := by
  have hs : slice = 100000001000000000000 := by decide
  simp only [seen, hs]
  constructor
  · repeat' split
    all_goals omega
  · split <;> omega

/-- Of a deadline that is not cancelled both cancellations are still to come. -/
theorem lt_of_not_isCancelled (h : ¬ d.isCancelled now = true) :
    (∀ c, d.cancel = some c → now < c) ∧ (∀ o, d.outerCancel = some o → now < o) := by
  rw [isCancelled, cancelledFrom, hasCome_earlier, Bool.or_eq_true, not_or] at h
  constructor
  · intro c hc
    rw [hc] at h
    simpa [hasCome] using h.1
  · intro o ho
    rw [ho] at h
    simpa [hasCome] using h.2

/-- A lull takes no negative time. -/
theorem le_lull (d : Deadline) (ending now : Int) : now ≤ d.lull ending now := by
  have hslices := le_slicesEnd now (ending - now)
  unfold lull
  split
  · exact hslices
  · rename_i o _
    have hseen := le_seen now o
    omega

/-- After the first wait the loop has as long to go as before, if the deadline itself is not
cancelled. -/
theorem lull_turn (h : ¬ d.isCancelled now = true) (hlt : now < ending) :
    d.lull ending (now + min (ending - now) interval + Clock.overshoot) = d.lull ending now ∧
      now + min (ending - now) interval + Clock.overshoot ≤ d.lull ending now := by
  have hslices := slicesEnd_turn hlt
  have hfirst := first_le_slicesEnd hlt
  unfold lull
  cases ho : d.outerCancel with
  | none => exact ⟨hslices.symm, hfirst⟩
  | some o =>
    obtain ⟨hlook, hnext⟩ := seen_turn ((lt_of_not_isCancelled h).2 o ho)
    have hslice : slice = interval + Clock.overshoot := rfl
    simp only
    refine ⟨?_, by omega⟩
    rw [← hslices]
    by_cases hwhole : interval ≤ ending - now
    · have hstep : now + min (ending - now) interval + Clock.overshoot = now + slice := by omega
      rw [hstep, hlook]
    · -- The first wait is the last one, so the loop ends before the next look.
      have hstep : now + min (ending - now) interval + Clock.overshoot =
          slicesEnd now (ending - now) := by
        rw [hslices, slicesEnd, if_pos (by have := Clock.overshoot_pos; omega)]
      have hseen := le_seen (now + min (ending - now) interval + Clock.overshoot) o
      omega

/-- A turn changes nothing about when the loop ends. -/
theorem dozeEnd_pause (h : ¬ d.isCancelled now = true) (hlt : now < ending) :
    d.dozeEnd ending (d.pause ending now) = d.dozeEnd ending now := by
  obtain ⟨hlull, hfirst⟩ := lull_turn h hlt
  unfold dozeEnd pause
  cases hc : d.cancel with
  | none => exact hlull
  | some c =>
    have hlater : now < c := (lt_of_not_isCancelled h).1 c hc
    simp only
    by_cases hbefore : c < now + min (ending - now) interval + Clock.overshoot
    · -- The wait is cut short, and the loop ends where it was.
      have hpause : min (now + min (ending - now) interval + Clock.overshoot) (max now c) =
          c := by omega
      have hrest := d.le_lull ending c
      rw [hpause]
      omega
    · have hpause : min (now + min (ending - now) interval + Clock.overshoot) (max now c) =
          now + min (ending - now) interval + Clock.overshoot := by omega
      rw [hpause, hlull]
      omega

/-- A turn takes time. -/
theorem lt_pause (h : ¬ d.isCancelled now = true) (hlt : now < ending) :
    now < d.pause ending now := by
  have ho := Clock.overshoot_pos
  have hi := interval_pos
  unfold pause
  cases hc : d.cancel with
  | none =>
    simp only
    omega
  | some c =>
    have hlater : now < c := (lt_of_not_isCancelled h).1 c hc
    simp only
    omega

/-- What an ancestor has cancelled is seen at the first look. -/
theorem lull_of_outerCancel (h : hasCome d.outerCancel now = true) : d.lull ending now = now := by
  cases ho : d.outerCancel with
  | none =>
    rw [ho] at h
    cases h
  | some o =>
    have hcome : o ≤ now := by simpa [ho, hasCome] using h
    have hseen : seen now o = now := by rw [seen, if_pos hcome]
    have hslices := le_slicesEnd now (ending - now)
    simp only [lull, ho, hseen]
    omega

/-- Under a cancelled deadline dozing is over at once. -/
theorem dozeEnd_of_isCancelled (h : d.isCancelled now = true) : d.dozeEnd ending now = now := by
  have hle := d.le_lull ending now
  rw [isCancelled, cancelledFrom, hasCome_earlier, Bool.or_eq_true] at h
  unfold dozeEnd
  -- It is cancelled itself, or through the deadlines above it.
  cases h with
  | inl hown =>
    cases hc : d.cancel with
    | none =>
      rw [hc] at hown
      cases hown
    | some c =>
      have hcome : c ≤ now := by simpa [hc, hasCome] using hown
      simp only
      omega
  | inr houter =>
    rw [lull_of_outerCancel houter]
    split <;> omega

/-- Dozing is over at once if its end has come. -/
theorem dozeEnd_of_le (h : ending ≤ now) : d.dozeEnd ending now = now := by
  have hle := d.le_lull ending now
  have hslices : slicesEnd now (ending - now) = now := by rw [slicesEnd, if_pos (by omega)]
  -- No slice is left to wait for.
  have hlull : d.lull ending now = now := by
    unfold lull at hle ⊢
    rw [hslices] at hle ⊢
    split
    · rfl
    · rename_i o _
      have hseen := le_seen now o
      omega
  unfold dozeEnd
  rw [hlull]
  split <;> omega

/-- The loop ends, and it ends at one moment. -/
theorem dozes_iff : Dozes d ending now u ↔ u = d.dozeEnd ending now := by
  constructor
  · intro h
    induction h with
    | cancelled hc => exact (dozeEnd_of_isCancelled hc).symm
    | ended _ hend => exact (dozeEnd_of_le hend).symm
    | turn hc hlt _ ih => rw [ih, dozeEnd_pause hc hlt]
  · -- Each turn leaves less, down to nothing.
    intro h
    rw [h]
    induction hleft : (ending - now).toNat using Nat.strongRecOn generalizing now u with
    | ind left ih =>
      by_cases hc : d.isCancelled now = true
      · rw [dozeEnd_of_isCancelled hc]
        exact .cancelled hc
      · by_cases hend : ending ≤ now
        · rw [dozeEnd_of_le hend]
          exact .ended hc hend
        · have hlt : now < ending := by omega
          have hpause := lt_pause hc hlt
          refine .turn hc hlt ?_
          rw [← dozeEnd_pause hc hlt]
          exact ih _ (by omega) rfl rfl

end

/-! ### Bounds -/

section
variable {d : Deadline} {t length c : Int}

/-- The cancellation of the deadline itself ends a sleep. -/
theorem sleep_le_of_cancel (h : d.cancel = some c) (htc : t ≤ c) : d.sleep t length ≤ c := by
  rw [sleep_eq_dozeEnd, dozeEnd, h]
  simp only
  omega

/-- The cancellation of an ancestor ends a sleep within a slice. -/
theorem sleep_le_of_outerCancel (h : hasCome d.outerCancel c = true) (htc : t ≤ c) :
    d.sleep t length ≤ c + slice := by
  cases ho : d.outerCancel with
  | none =>
    rw [ho] at h
    cases h
  | some o =>
    have hcome : o ≤ c := by simpa [ho, hasCome] using h
    have hseen := seen_lt t o
    -- The cancellation above is seen at the end of its slice.
    have hlull : d.lull (t + min length (d.remaining t)) t ≤ seen t o := by
      rw [lull, ho]
      exact Int.min_le_right _ _
    rw [sleep_eq_dozeEnd, dozeEnd]
    split <;> omega

/-- As long as it is not cancelled a deadline sleeps on. -/
theorem le_sleep_of_uncancelled (hcancel : ∀ u, u < c → ¬ d.isCancelled u = true)
    (hend : c ≤ d.napEnd t length) : c ≤ d.sleep t length := by
  rw [sleep_eq]
  cases hw : d.wake t with
  | none => exact hend
  | some w =>
    have hcome : d.isCancelled w = true := (le_wake hw).2
    have hle : c ≤ w := by
      -- Waking earlier would take a cancellation, and there is none by then.
      by_cases hlt : w < c
      · exact absurd hcome (hcancel w hlt)
      · omega
    simp only
    omega

/-- What a sleep may last at most, or nothing if that is no time. -/
def span (d : Deadline) (t length : Int) : Int := max 0 (min length (d.remaining t))

/-- A nap ends no earlier than its span. -/
theorem add_span_le_napEnd (d : Deadline) (t length : Int) :
    t + d.span t length ≤ d.napEnd t length := by
  have hnow := le_slicesEnd t (min length (d.remaining t))
  have hadd := add_le_slicesEnd t (min length (d.remaining t))
  unfold span napEnd
  omega

/-- A sleep ends no later than its span and an overshoot. -/
theorem sleep_le_span (d : Deadline) (t length : Int) :
    d.sleep t length ≤ t + d.span t length + Clock.overshoot := by
  have hnap : d.sleep t length ≤ slicesEnd t (min length (d.remaining t)) :=
    d.sleep_le_napEnd t length
  have hslices := slicesEnd_le t (min length (d.remaining t))
  have ho := Clock.overshoot_pos
  unfold span
  omega

end

/-! ### Cancellations in a forest -/

namespace Forest

/-- Whether the deadline at a position is cancelled at a moment. -/
def Cancels (f : Forest) (i : Nat) (c : Int) : Prop := ∃ n, f.nodes[i]? = some n ∧ n.cancel = some c

/-- Whether the deadline at a position and its ancestors are cancelled at a moment at the earliest.
-/
def Spares (f : Forest) (i : Nat) (c : Int) : Prop :=
  ∀ j e, f.Descends j i → f.Cancels j e → c ≤ e

section
variable {f : Forest} {i j : Nat} {d : Deadline} {c u : Int}

/-- The cancellation of a deadline stands in its node. -/
theorem cancel_of_get? (hd : f.get? i = some d) : d.cancel = some c ↔ f.Cancels i c := by
  obtain ⟨n, hn, rfl⟩ := get?_eq_some_iff.mp hd
  constructor
  · intro h
    exact ⟨n, hn, h⟩
  · rintro ⟨m, hm, h⟩
    rw [hn] at hm
    cases hm
    exact h

/-- A deadline that its line spares until a moment is not cancelled before. -/
theorem not_isCancelled_of_spares (hf : f.IsOrdered) (hd : f.get? i = some d) (h : f.Spares i c)
    (hu : u < c) : ¬ d.isCancelled u = true := by
  intro hcancelled
  obtain ⟨n, hn, -⟩ := get?_eq_some_iff.mp hd
  have hi : i < f.nodes.length := (List.getElem?_eq_some_iff.mp hn).1
  rw [isCancelled, cancelledFrom_of_get? hf hd] at hcancelled
  obtain ⟨j, m, hj, hm, hcome⟩ := (hasCome_cancelledAt_iff hf hi).mp hcancelled
  -- It would be cancelled by itself or by an ancestor, and none of these is cancelled by then.
  cases he : m.cancel with
  | none =>
    rw [he] at hcome
    cases hcome
  | some e =>
    have hle : e ≤ u := by simpa [he, hasCome] using hcome
    have hce : c ≤ e := h j e hj ⟨m, hm, he⟩
    omega

/-- An ancestor of a deadline is its parent or an ancestor of that. -/
theorem exists_parent_of_ne (h : f.Descends j i) (hne : j ≠ i) :
    ∃ p, f.parent? i = some p ∧ f.Descends j p := by
  cases h with
  | self => exact absurd rfl hne
  | child hp h => exact ⟨_, hp, h⟩

/-- The cancellation of an ancestor is an outer one. -/
theorem hasCome_outerCancel (hf : f.IsOrdered) (hd : f.get? i = some d) (hj : f.Descends j i)
    (hne : j ≠ i) (hc : f.Cancels j c) : hasCome d.outerCancel c = true := by
  obtain ⟨n, hn, rfl⟩ := get?_eq_some_iff.mp hd
  -- The ancestor lies above the parent, or it is the parent.
  obtain ⟨p, hp, hjp⟩ := exists_parent_of_ne hj hne
  obtain ⟨m, hm, hmc⟩ := hc
  have hparent : n.parent = some p := by rw [← parent?_of_getElem? hn, hp]
  have hlt : p < i := hf i p hp
  have hi : i < f.nodes.length := lt_length_of_parent? hp
  show hasCome (f.cancelledFrom f.nodes.length n.parent) c = true
  rw [hparent]
  refine (hasCome_cancelledAt_iff hf (show p < f.nodes.length by omega)).mpr ⟨j, m, hjp, hm, ?_⟩
  rw [hmc]
  exact decide_eq_true (Int.le_refl c)

end

/-! ### Every sleep -/

/-- A sleep of a deadline in a forest, of whose deadlines any may be cancelled at any moment. The
loop ends, and at one moment: not before it starts, and no later than the sleep may last, but for
the overshoot. It lasts that long unless the deadline or an ancestor of it is cancelled meanwhile.
If the deadline itself is, the sleep ends no later than that, and just then if no ancestor is
cancelled before. If an ancestor is, the sleep ends within an interval and the overshoot, and not
before if nothing else is cancelled before. A deadline that is cancelled already does not sleep. -/
theorem sleeps_as_long_as_it_may {f : Forest} (hf : f.IsOrdered) {i : Nat} {d : Deadline}
    (hd : f.get? i = some d) (t length : Int) :
    (∀ u, Dozes d (t + min length (d.remaining t)) t u ↔ u = d.sleep t length) ∧
    t ≤ d.sleep t length ∧ d.sleep t length ≤ t + d.span t length + Clock.overshoot ∧
    (f.Spares i (t + d.span t length) → t + d.span t length ≤ d.sleep t length) ∧
    (∀ c, f.Cancels i c → t ≤ c → c < t + d.span t length →
      d.sleep t length ≤ c ∧ (f.Spares i c → d.sleep t length = c)) ∧
    (∀ j c, f.Descends j i → j ≠ i → f.Cancels j c → t ≤ c → c < t + d.span t length →
      d.sleep t length ≤ c + interval + Clock.overshoot ∧ (f.Spares i c → c ≤ d.sleep t length)) ∧
    (d.isCancelled t = true → d.sleep t length = t) := by
  have hnap := d.add_span_le_napEnd t length
  -- As long as nothing is cancelled on the way up, the sleep goes on.
  have hspared : ∀ c, f.Spares i c → c ≤ t + d.span t length → c ≤ d.sleep t length := by
    intro c hspares hle
    exact le_sleep_of_uncancelled (fun u hu => not_isCancelled_of_spares hf hd hspares hu)
      (by omega)
  refine ⟨?_, d.le_sleep t length, d.sleep_le_span t length, ?_, ?_, ?_, ?_⟩
  · intro u
    rw [dozes_iff, sleep_eq_dozeEnd]
  · intro hspares
    exact hspared _ hspares (Int.le_refl _)
  · intro c hc htc hlt
    have hle : d.sleep t length ≤ c := sleep_le_of_cancel ((cancel_of_get? hd).mpr hc) htc
    refine ⟨hle, ?_⟩
    intro hspares
    have hge := hspared c hspares (by omega)
    omega
  · intro j c hj hne hc htc hlt
    have hslice : slice = interval + Clock.overshoot := rfl
    have hle : d.sleep t length ≤ c + slice :=
      sleep_le_of_outerCancel (hasCome_outerCancel hf hd hj hne hc) htc
    refine ⟨by omega, ?_⟩
    intro hspares
    exact hspared c hspares (by omega)
  · intro hcancelled
    rw [sleep_eq_dozeEnd, dozeEnd_of_isCancelled hcancelled]

/-- A deadline of ten seconds, to be cancelled after 50 ms, and a child of it that is to be
cancelled after 900 ms. -/
def twiceCancelled : Forest where
  nodes := [⟨Binary64.ofNat 10, 10 * Clock.second, some (50 * Clock.millisecond), none⟩,
    ⟨Binary64.ofNat 10, 10 * Clock.second, some (900 * Clock.millisecond), some 0⟩]

/-- The two deadlines were made one after the other. -/
theorem isOrdered_twiceCancelled : twiceCancelled.IsOrdered := by
  intro i p h
  have hi : i < 2 := lt_length_of_parent? h
  have hroot : twiceCancelled.parent? 0 = none := rfl
  have hchild : twiceCancelled.parent? 1 = some 0 := rfl
  obtain rfl | rfl : i = 0 ∨ i = 1 := by omega
  · rw [hroot] at h
    cases h
  · rw [hchild] at h
    cases h
    decide

/-- The child as a deadline. -/
theorem get?_twiceCancelled : twiceCancelled.get? 1 = some
    ⟨Binary64.ofNat 10, 10 * Clock.second, some (900 * Clock.millisecond),
      some (50 * Clock.millisecond)⟩ := rfl

/-- The child notices that its parent is cancelled. -/
theorem sleeps_as_long_as_it_may_of_twiceCancelled :
    twiceCancelled.IsOrdered ∧ ∃ d, twiceCancelled.get? 1 = some d ∧
      50 * Clock.millisecond ≤ d.sleep 0 Clock.second ∧
      d.sleep 0 Clock.second ≤ 150 * Clock.millisecond + Clock.overshoot := by
  obtain ⟨-, -, -, -, -, houter, -⟩ := sleeps_as_long_as_it_may isOrdered_twiceCancelled
    get?_twiceCancelled 0 Clock.second
  have hparent : twiceCancelled.Descends 0 1 := .child rfl .self
  have hcancels : twiceCancelled.Cancels 0 (50 * Clock.millisecond) := ⟨_, rfl, rfl⟩
  obtain ⟨hle, hge⟩ := houter 0 _ hparent (by decide) hcancels (by decide) (by decide +kernel)
  -- The earliest cancellation of the two is the one of the parent.
  have hspares : twiceCancelled.Spares 1 (50 * Clock.millisecond) := by
    intro j e hj hc
    obtain ⟨m, hm, he⟩ := hc
    have hbelow : j ≤ 1 := hj.le isOrdered_twiceCancelled
    obtain rfl | rfl : j = 0 ∨ j = 1 := by omega
    all_goals
      cases hm
      cases he
      decide
  exact ⟨isOrdered_twiceCancelled, _, get?_twiceCancelled, hge hspares, hle⟩

/-- A deadline that is cancelled while it sleeps may have ended its sleep before: the child of a
deadline that was cancelled after 50 ms sleeps until its first look after that, and not until it is
itself cancelled. -/
theorem not_sleep_until_cancelled :
    ¬ ∀ (f : Forest), f.IsOrdered → ∀ i d, f.get? i = some d → ∀ t length c, f.Cancels i c → t ≤ c →
      c < t + d.span t length → d.sleep t length = c := by
  intro h
  have hcancels : twiceCancelled.Cancels 1 (900 * Clock.millisecond) := ⟨_, rfl, rfl⟩
  have huntil :=
    h twiceCancelled isOrdered_twiceCancelled 1 _ get?_twiceCancelled 0 Clock.second _ hcancels
    (by decide) (by decide +kernel)
  revert huntil
  decide +kernel

end Forest
end Slipway.Deadline
