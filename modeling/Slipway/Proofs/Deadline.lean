import Slipway.Deadline.Basic

/-!
# `Slipway.Proofs.Deadline`: sleeps, looks and children

A sleep never ends before it starts. It ends by itself, or it is cut short: at once when the
deadline itself is cancelled, and at the next look when an ancestor is. `wake` is the moment of the
cut, and `sleep_eq` states a sleep through it.

A child has the time that its parent has (`remaining_child`), and it is cancelled when its parent is
(`isCancelled_child`). What differs is how a sleep notices: the cancellation of the parent is that
of an ancestor for the child. `sleep_child` compares the two sleeps. They end together, or both end
cancelled, the child's less than one slice after the parent's.

`Extends` compares two deadlines that nobody cancels, of which the second expires no earlier. A
sleep that fits into what remains is the same against both (`Extends.sleep_eq`), and after one that
does not fit the first deadline is over (`isExpired_sleep`). -/

set_option autoImplicit false

namespace Slipway.Deadline

/-- Time goes by between two looks at a cancellation. -/
theorem interval_pos : 0 < interval := by decide

/-- A slice takes time. -/
theorem slice_pos : 0 < slice := by decide

/-! ### Moments -/

/-- A moment that has come stays so. -/
theorem hasCome_mono {moment : Option Int} {t u : Int} (htu : t ≤ u)
    (h : hasCome moment t = true) : hasCome moment u = true := by
  cases moment with
  | none => exact h
  | some c =>
    simp only [hasCome, decide_eq_true_eq] at h ⊢
    omega

/-- A deadline that is cancelled stays so. -/
theorem isCancelled_mono {d : Deadline} {t u : Int} (htu : t ≤ u) (h : d.isCancelled t = true) :
    d.isCancelled u = true :=
  hasCome_mono htu h

/-- There is no earlier of two moments only if there is none at all. -/
theorem earlier_eq_none {a b : Option Int} : earlier a b = none ↔ a = none ∧ b = none := by
  cases a <;> cases b <;> simp [earlier]

/-- The earlier of two moments has come if one of them has. -/
theorem hasCome_earlier (a b : Option Int) (t : Int) :
    hasCome (earlier a b) t = (hasCome a t || hasCome b t) := by
  cases a with
  | none => cases b <;> rfl
  | some a =>
    cases b with
    | none => exact (Bool.or_false _).symm
    | some b =>
      have hmin : min a b ≤ t ↔ a ≤ t ∨ b ≤ t := by omega
      simp only [hasCome, earlier, hmin, Bool.decide_or]

/-- A cancelled deadline is expired. -/
theorem isExpired_of_isCancelled {d : Deadline} {now : Int} (h : d.isCancelled now = true) :
    d.isExpired now = true := by
  simp [isExpired, remaining, h]

/-! ### Looks -/

/-- A moment is not seen before the present. -/
theorem le_seen (now moment : Int) : now ≤ seen now moment := by
  unfold seen
  split
  · exact Int.le_refl now
  · -- Looks are whole slices apart, so the next one that sees a later moment is a multiple away.
    have hq : 0 ≤ (moment - now + slice - 1) / slice :=
      Int.ediv_nonneg (by have := slice_pos; omega) (Int.le_of_lt slice_pos)
    have hp := Int.mul_nonneg hq (Int.le_of_lt slice_pos)
    omega

/-- A look comes no earlier than what it sees. -/
theorem moment_le_seen (now moment : Int) : moment ≤ seen now moment := by
  unfold seen
  split
  · assumption
  · have hs := slice_pos
    have hdm := Int.emod_add_mul_ediv (moment - now + slice - 1) slice
    have hlt := Int.emod_lt_of_pos (moment - now + slice - 1) hs
    rw [Int.mul_comm] at hdm
    omega

/-- A look comes less than one slice after what it sees. -/
theorem seen_lt (now moment : Int) : seen now moment < max now moment + slice := by
  have hs := slice_pos
  unfold seen
  split
  · omega
  · have hdm := Int.emod_add_mul_ediv (moment - now + slice - 1) slice
    have hnn := Int.emod_nonneg (moment - now + slice - 1) (by omega : slice ≠ 0)
    rw [Int.mul_comm] at hdm
    omega

/-! ### Sleeps -/

/-- Slices do not end before they begin. -/
theorem le_slicesEnd (now length : Int) : now ≤ slicesEnd now length := by
  have hs := slice_pos
  have hi := interval_pos
  have ho := Clock.overshoot_pos
  unfold slicesEnd
  simp only
  split
  · exact Int.le_refl now
  · split
    · omega
    · split
      · omega
      · -- The last slice is shorter than the others, but not negative.
        have hlt := Int.emod_lt_of_pos length hs
        omega

/-- A wait that is taken in slices overshoots once. -/
theorem slicesEnd_le (now length : Int) :
    slicesEnd now length ≤ max now (now + length + Clock.overshoot) := by
  have hslice : slice = interval + Clock.overshoot := rfl
  have ho := Clock.overshoot_pos
  unfold slicesEnd
  simp only
  split
  · omega
  · split
    · omega
    · split
      · omega
      · -- What is left over fills an interval, so only its overshoot is not asked for.
        omega

/-- A wait of some length takes time. -/
theorem lt_slicesEnd (now : Int) {length : Int} (h : 0 < length) : now < slicesEnd now length := by
  have hs := slice_pos
  have ho := Clock.overshoot_pos
  unfold slicesEnd
  simp only
  split
  · omega
  · split
    · omega
    · split
      · omega
      · -- There are whole slices, and then a last one that may be empty.
        have hq : 0 ≤ length / slice := Int.ediv_nonneg (Int.le_of_lt h) (Int.le_of_lt hs)
        have hp := Int.mul_nonneg (Int.le_of_lt hs) hq
        have hdm := Int.emod_add_mul_ediv length slice
        omega

/-- When a sleep that starts now would end by itself. -/
def napEnd (d : Deadline) (now length : Int) : Int :=
  slicesEnd now (min length (d.remaining now))

/-- The moment at which a sleep that starts now is cut short, if it ever is. -/
def wake (d : Deadline) (now : Int) : Option Int :=
  earlier (d.cancel.map (max now)) (d.outerCancel.map (seen now))

/-- A sleep ends by itself or when it is cut short, whichever comes first. -/
theorem sleep_eq (d : Deadline) (now length : Int) :
    d.sleep now length = match d.wake now with
      | none => d.napEnd now length
      | some w => min (d.napEnd now length) w := by
  unfold sleep wake napEnd
  cases d.cancel <;> cases d.outerCancel <;> simp [earlier, Int.min_assoc]

/-- A sleep is cut short exactly if the deadline is ever cancelled. -/
theorem wake_eq_none {d : Deadline} {now : Int} : d.wake now = none ↔ d.cancelledFrom = none := by
  simp [wake, cancelledFrom, earlier_eq_none]

/-- A sleep is cut short when the deadline is cancelled or after that, and not before it starts. -/
theorem le_wake {d : Deadline} {now w : Int} (h : d.wake now = some w) :
    now ≤ w ∧ d.isCancelled w = true := by
  obtain ⟨total, expiry, cancel, outer⟩ := d
  have hs := le_seen now
  have hm := moment_le_seen now
  -- What wakes a sleep is the deadline's own cancellation, one from outside, or the earlier of
  -- both.
  cases cancel <;> cases outer <;>
    simp only [wake, earlier, Option.map, Option.some.injEq, reduceCtorEq] at h <;>
    subst h <;> simp only [isCancelled, cancelledFrom, earlier, hasCome, decide_eq_true_eq]
  case none.some o => exact ⟨hs o, hm o⟩
  case some.none c => omega
  case some.some c o =>
    have := hs o
    have := hm o
    omega

/-- A sleep does not end before it starts. -/
theorem le_sleep (d : Deadline) (now length : Int) : now ≤ d.sleep now length := by
  have hn : now ≤ d.napEnd now length := le_slicesEnd now _
  rw [sleep_eq]
  cases hw : d.wake now with
  | none => exact hn
  | some w =>
    have := (le_wake hw).1
    simp only
    omega

/-- What remains is never negative. -/
theorem remaining_nonneg (d : Deadline) (now : Int) : 0 ≤ d.remaining now := by
  unfold remaining
  split <;> omega

/-- What remains of a deadline lies before its expiry. -/
theorem remaining_le (d : Deadline) (now : Int) : now + d.remaining now ≤ max now d.expiry := by
  unfold remaining
  split <;> omega

/-- Of a deadline that has not expired remains the time to its expiry. -/
theorem remaining_eq {d : Deadline} {now : Int} (h : ¬ d.isExpired now = true) :
    0 < d.remaining now ∧ d.remaining now = d.expiry - now := by
  have hlt := lt_expiry_of_not_expired h
  have hc : ¬ d.isCancelled now = true := fun hc => h (isExpired_of_isCancelled hc)
  rw [remaining, if_neg hc]
  omega

/-- A deadline is over from the present on, at the earliest. -/
theorem le_overFrom (d : Deadline) (now : Int) : now ≤ d.overFrom now := Int.le_max_left _ _

/-- From some moment on a deadline is over at `overFrom` and later, and at no moment before. -/
theorem isExpired_iff_overFrom_le {d : Deadline} {now t : Int} (h : now ≤ t) :
    d.isExpired t = true ↔ d.overFrom now ≤ t := by
  unfold isExpired remaining isCancelled hasCome overFrom
  cases d.cancelledFrom with
  | none =>
    simp only [Bool.false_eq_true, if_false, decide_eq_true_eq]
    omega
  | some c =>
    simp only [decide_eq_true_eq]
    split <;> omega

/-- From that moment on it is expired. -/
theorem isExpired_overFrom (d : Deadline) (now : Int) : d.isExpired (d.overFrom now) = true :=
  (isExpired_iff_overFrom_le (d.le_overFrom now)).mpr (Int.le_refl _)

/-- A sleep ends by itself, or earlier. -/
theorem sleep_le_napEnd (d : Deadline) (now length : Int) :
    d.sleep now length ≤ d.napEnd now length := by
  rw [sleep_eq]
  cases d.wake now with
  | none => exact Int.le_refl _
  | some w => exact Int.min_le_left _ _

/-- A sleep lasts no longer than it is to, but for the overshoot. -/
theorem sleep_le_add (d : Deadline) (now : Int) {length : Int} (h : 0 ≤ length) :
    d.sleep now length ≤ now + length + Clock.overshoot := by
  have ho := Clock.overshoot_pos
  have hnap : d.sleep now length ≤ slicesEnd now (min length (d.remaining now)) :=
    d.sleep_le_napEnd now length
  have hslices := slicesEnd_le now (min length (d.remaining now))
  omega

/-- A sleep ends when the deadline expires at the latest, but for the overshoot. -/
theorem sleep_le (d : Deadline) (now length : Int) :
    d.sleep now length ≤ max now (d.expiry + Clock.overshoot) := by
  have hnap : d.sleep now length ≤ slicesEnd now (min length (d.remaining now)) :=
    d.sleep_le_napEnd now length
  have hslices := slicesEnd_le now (min length (d.remaining now))
  have hleft := d.remaining_le now
  by_cases hpos : 0 < min length (d.remaining now)
  · omega
  · -- There is nothing to sleep for.
    have hnone : slicesEnd now (min length (d.remaining now)) = now := by
      rw [slicesEnd, if_pos (by omega)]
    omega

/-- A sleep against a deadline that has not expired takes time, also if it is cut short. -/
theorem lt_sleep {d : Deadline} {now length : Int} (h : ¬ d.isExpired now = true)
    (hlength : 0 < length) : now < d.sleep now length := by
  have hleft := (remaining_eq h).1
  have hnap : now < d.napEnd now length := lt_slicesEnd now (by omega)
  rw [sleep_eq]
  cases hw : d.wake now with
  | none => exact hnap
  | some w =>
    -- A sleep that was cut short at its start would have been cancelled before.
    obtain ⟨hle, hc⟩ := le_wake hw
    have hne : w ≠ now := by
      rintro rfl
      exact h (isExpired_of_isCancelled hc)
    simp only
    omega

/-- A wait gives up no earlier than it starts. -/
theorem le_givesUp (d : Deadline) (now : Int) : now ≤ d.givesUp now := by
  have ho := Clock.overshoot_pos
  have hn := le_slicesEnd now (d.remaining now)
  unfold givesUp
  simp only
  split
  · omega
  · split
    · have := le_seen now ‹Int›
      omega
    · exact hn

/-- A wait gives up when the deadline expires at the latest, but for the overshoot. -/
theorem givesUp_le (d : Deadline) (now : Int) :
    d.givesUp now ≤ max now d.expiry + Clock.overshoot := by
  have ho := Clock.overshoot_pos
  have hleft := d.remaining_le now
  have hpos := d.remaining_nonneg now
  have hslices := slicesEnd_le now (d.remaining now)
  unfold givesUp
  simp only
  -- Nothing remains, or all slices of what remains are taken unless a cancellation wakes the wait.
  split
  · omega
  · split
    · omega
    · omega

/-! ### Children -/

section
variable (d : Deadline) {now t : Int}

/-- A child expires with its parent, or at once. -/
theorem expiry_child_le : (d.child now).expiry ≤ max now d.expiry := d.remaining_le now

/-- A child that expires later than it is made expires with its parent. -/
theorem expiry_child_eq (h : now < (d.child now).expiry) : (d.child now).expiry = d.expiry := by
  have hexpiry : (d.child now).expiry = now + d.remaining now := rfl
  rw [hexpiry] at h ⊢
  unfold remaining at h ⊢
  split at h
  · omega
  · rename_i hc
    rw [if_neg hc]
    omega

/-- A child is cancelled when its parent is. -/
theorem cancelledFrom_child : (d.child now).cancelledFrom = d.cancelledFrom := by
  simp [child, cancelledFrom, earlier]

/-- A child is cancelled when its parent is. -/
theorem isCancelled_child : (d.child now).isCancelled t = d.isCancelled t := by
  rw [isCancelled, isCancelled, cancelledFrom_child]

/-- A child has the time that its parent has, from the moment on at which it is made. -/
theorem remaining_child (h : now ≤ t) : (d.child now).remaining t = d.remaining t := by
  have hexpiry : (d.child now).expiry = now + d.remaining now := rfl
  rw [remaining, remaining, isCancelled_child]
  cases ht : d.isCancelled t with
  | true => rfl
  | false =>
    -- The child was made with the time that was left, and that is what counts unless the parent had
    -- already been cancelled.
    have hnow : d.isCancelled now = false := by
      cases hn : d.isCancelled now with
      | false => rfl
      | true => exact absurd (isCancelled_mono h hn) (by simp [ht])
    have hr : d.remaining now = max 0 (d.expiry - now) := by simp [remaining, hnow]
    simp only [hexpiry, hr, Bool.false_eq_true, if_false]
    omega

/-- A child expires with its parent. -/
theorem isExpired_child (h : now ≤ t) : (d.child now).isExpired t = d.isExpired t := by
  rw [isExpired, isExpired, remaining_child d h]

/-- A child is over when its deadline is. -/
theorem overFrom_child (h : now ≤ t) : (d.child now).overFrom t = d.overFrom t := by
  have hsame : ∀ u, t ≤ u → ((d.child now).overFrom t ≤ u ↔ d.overFrom t ≤ u) := fun u hu => by
    rw [← isExpired_iff_overFrom_le hu, ← isExpired_iff_overFrom_le hu,
      d.isExpired_child (Int.le_trans h hu)]
  exact Int.le_antisymm ((hsame _ (d.le_overFrom t)).mpr (Int.le_refl _))
    ((hsame _ ((d.child now).le_overFrom t)).mp (Int.le_refl _))

/-- A child of a child made at the same moment is no other deadline. -/
theorem child_child : (d.child now).child now = d.child now := by
  have hr : (d.child now).remaining now = d.remaining now := remaining_child d (Int.le_refl now)
  have hc : (d.child now).cancelledFrom = d.cancelledFrom := cancelledFrom_child d
  simp only [child] at hr hc ⊢
  rw [hr, hc]

/-- A wait against a child gives up with one against the parent. -/
theorem givesUp_child : (d.child now).givesUp now = d.givesUp now := by
  unfold givesUp
  rw [remaining_child d (Int.le_refl now), cancelledFrom_child]

/-- A nap against a child ends with one against the parent. -/
theorem napEnd_child (h : now ≤ t) (length : Int) :
    (d.child now).napEnd t length = d.napEnd t length := by
  rw [napEnd, napEnd, remaining_child d h]

/-- A sleep of a child is cut short no earlier than that of its parent, and less than one slice
later. -/
theorem wake_child {w : Int} (h : d.wake t = some w) :
    ∃ v, (d.child now).wake t = some v ∧ w ≤ v ∧ v < w + slice := by
  obtain ⟨total, expiry, cancel, outer⟩ := d
  have hs := slice_pos
  -- What cancels the parent itself is an ancestor's cancellation for the child, seen by looks only.
  cases cancel <;> cases outer <;>
    simp only [wake, child, cancelledFrom, earlier, Option.map, Option.some.injEq,
      reduceCtorEq, exists_eq_left'] at h ⊢ <;> subst h
  case none.some o => omega
  case some.none c =>
    have := seen_lt t c
    have := le_seen t c
    have := moment_le_seen t c
    omega
  case some.some c o =>
    have := seen_lt t (min c o)
    have := le_seen t (min c o)
    have := moment_le_seen t (min c o)
    have := seen_lt t o
    have := le_seen t o
    have := moment_le_seen t o
    rcases Int.le_total c o with hco | hoc
    · rw [Int.min_eq_left hco] at *
      omega
    · rw [Int.min_eq_right hoc] at *
      omega

/-- The sleeps end together if the parent itself is never cancelled. -/
theorem sleep_child_of_cancel_eq_none (hd : d.cancel = none) (h : now ≤ t) (length : Int) :
    (d.child now).sleep t length = d.sleep t length := by
  have hw : (d.child now).wake t = d.wake t := by
    simp [wake, child, cancelledFrom, hd, earlier]
  rw [sleep_eq, sleep_eq, napEnd_child d h, hw]

/-- A sleep of a child and one of its parent that start together end together, unless the parent
itself is cancelled and both are cut short. -/
theorem sleep_child (h : now ≤ t) (length : Int) :
    (d.child now).sleep t length = d.sleep t length ∨
    (d.cancel ≠ none ∧ d.isCancelled (d.sleep t length) = true ∧
      d.sleep t length ≤ (d.child now).sleep t length ∧
      (d.child now).sleep t length < d.sleep t length + slice) := by
  by_cases hd : d.cancel = none
  · exact Or.inl (sleep_child_of_cancel_eq_none d hd h length)
  rw [sleep_eq, sleep_eq, napEnd_child d h]
  cases hw : d.wake t with
  | none => exact absurd (earlier_eq_none.mp (wake_eq_none.mp hw)).1 hd
  | some w =>
    obtain ⟨v, hv, hwv, hvw⟩ : ∃ v, (d.child now).wake t = some v ∧ w ≤ v ∧ v < w + slice :=
      wake_child d hw
    have hs := slice_pos
    rw [hv]
    simp only
    -- The sleep ends before anything wakes it, or is cut short in both and the child notices later.
    by_cases hn : d.napEnd t length < w
    · left
      omega
    · right
      refine ⟨hd, ?_, by omega, by omega⟩
      rw [Int.min_eq_right (by omega)]
      exact (le_wake hw).2

/-- How much later than against a deadline a wait may end against a child of it: a child notices at
its next look what the deadline notices at once. -/
def lag (d : Deadline) : Int := if d.cancel = none then 0 else slice

/-- A child never notices sooner than its deadline. -/
theorem lag_nonneg : 0 ≤ d.lag := by
  have hs := slice_pos
  unfold lag
  split <;> omega

end

/-! ### Longer deadlines -/

/-- A wait that is taken in slices lasts no less than it is to. -/
theorem add_le_slicesEnd (now length : Int) : now + length ≤ slicesEnd now length := by
  have hlt := Int.emod_lt_of_pos length slice_pos
  have ho := Clock.overshoot_pos
  unfold slicesEnd
  simp only
  split
  · omega
  · split
    · omega
    · split <;> omega

/-- Waits that are taken in slices end in the order of their lengths. -/
theorem slicesEnd_mono (now : Int) {length length' : Int} (h : length ≤ length') :
    slicesEnd now length ≤ slicesEnd now length' := by
  by_cases hpos : length ≤ 0
  · have hnow := le_slicesEnd now length'
    rw [slicesEnd, if_pos hpos]
    exact hnow
  · -- The lengths of a slice and of an interval are numbers here, so that the slices can be
    -- counted.
    have hs : slice = 100000001000000000000 := by decide
    have hi : interval = 100000000000000000000 := by decide
    have ho : Clock.overshoot = 1000000000000 := by decide
    simp only [slicesEnd, if_neg hpos, if_neg (show ¬ length' ≤ 0 by omega), hs, hi, ho]
    repeat' split
    all_goals omega

/-- It overshoots at least once if there is anything to wait for. -/
theorem overshoot_le_slicesEnd (now : Int) {length : Int} (h : 0 < length) :
    now + Clock.overshoot ≤ slicesEnd now length := by
  have htick : slicesEnd now 1 = now + 1 + Clock.overshoot := rfl
  have hmono := slicesEnd_mono now (show 1 ≤ length by omega)
  omega

section
variable {d d' : Deadline} {now length : Int}

/-- A deadline that nobody cancels is over when it expires, and only then. -/
theorem remaining_of_uncancelled (h : d.cancelledFrom = none) (now : Int) :
    d.remaining now = max 0 (d.expiry - now) := by
  have hc : d.isCancelled now = false := by
    rw [isCancelled, h]
    rfl
  rw [remaining, hc]
  rfl

/-- A sleep that nobody cancels takes the slices of its length, or of what remains. -/
theorem sleep_of_uncancelled (h : d.cancelledFrom = none) (now length : Int) :
    d.sleep now length = slicesEnd now (min length (d.remaining now)) := by
  rw [sleep_eq, wake_eq_none.mpr h]
  rfl

/-- A wait that nobody cancels gives up when nothing remains. -/
theorem givesUp_of_uncancelled (h : d.cancelledFrom = none) (now : Int) :
    d.givesUp now =
      if d.remaining now = 0 then now + Clock.overshoot else slicesEnd now (d.remaining now) := by
  rw [givesUp, h]

/-- A deadline that nobody cancels expires at its moment. -/
theorem isExpired_iff_of_uncancelled (h : d.cancelledFrom = none) :
    d.isExpired now = true ↔ d.expiry ≤ now := by
  rw [isExpired, remaining_of_uncancelled h, decide_eq_true_iff]
  omega

/-- Once it has expired it stays so. -/
theorem isExpired_mono {t : Int} (h : d.cancelledFrom = none) (hle : now ≤ t)
    (hexp : d.isExpired now = true) : d.isExpired t = true := by
  rw [isExpired_iff_of_uncancelled h] at hexp ⊢
  omega

/-- Whoever sleeps for more than what remains wakes when the deadline is over. -/
theorem isExpired_sleep (h : d.cancelledFrom = none) (hlength : d.remaining now < length) :
    d.isExpired (d.sleep now length) = true := by
  rw [isExpired_iff_of_uncancelled h, sleep_of_uncancelled h,
    Int.min_eq_right (Int.le_of_lt hlength)]
  have hleft := remaining_of_uncancelled h now
  have hslices := add_le_slicesEnd now (d.remaining now)
  omega

/-- Two deadlines that nobody cancels, of which the second expires no earlier. What they are told to
be in all does not count. -/
structure Extends (d d' : Deadline) : Prop where
  uncancelled : d.cancelledFrom = none
  uncancelled' : d'.cancelledFrom = none
  expiry_le : d.expiry ≤ d'.expiry

namespace Extends

variable (h : d.Extends d')
include h

/-- The longer deadline has more left. -/
theorem remaining_le (now : Int) : d.remaining now ≤ d'.remaining now := by
  have hexpiry := h.expiry_le
  rw [remaining_of_uncancelled h.uncancelled, remaining_of_uncancelled h.uncancelled']
  omega

/-- Children of two deadlines are as far apart as these. -/
theorem child (now : Int) : (d.child now).Extends (d'.child now) where
  uncancelled := by rw [cancelledFrom_child, h.uncancelled]
  uncancelled' := by rw [cancelledFrom_child, h.uncancelled']
  expiry_le := Int.add_le_add_left (h.remaining_le now) now

/-- What has not expired has not expired either if it is longer. -/
theorem not_isExpired (hexp : ¬ d.isExpired now = true) : ¬ d'.isExpired now = true := by
  have hexpiry := h.expiry_le
  rw [isExpired_iff_of_uncancelled h.uncancelled] at hexp
  rw [isExpired_iff_of_uncancelled h.uncancelled']
  omega

/-- A sleep that fits into what remains is the same. -/
theorem sleep_eq (hlength : length ≤ d.remaining now) :
    d'.sleep now length = d.sleep now length := by
  have hleft := h.remaining_le now
  rw [sleep_of_uncancelled h.uncancelled, sleep_of_uncancelled h.uncancelled',
    Int.min_eq_left hlength, Int.min_eq_left (by omega)]

/-- Nobody gives up sooner who has more time. -/
theorem givesUp_le (now : Int) : d.givesUp now ≤ d'.givesUp now := by
  have hleft := h.remaining_le now
  have hnonneg := d.remaining_nonneg now
  rw [givesUp_of_uncancelled h.uncancelled, givesUp_of_uncancelled h.uncancelled']
  split
  · split
    · exact Int.le_refl _
    · exact overshoot_le_slicesEnd now (by omega)
  · rw [if_neg (by omega)]
    exact slicesEnd_mono now hleft

end Extends

end

end Slipway.Deadline
