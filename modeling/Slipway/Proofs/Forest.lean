import Slipway.Deadline.Forest
import Slipway.Proofs.Deadline

/-!
# `Slipway.Proofs.Forest`: deadlines and their children stay consistent

A forest grows by steps: time goes by, a deadline is made, a child of one is made, a deadline is
cancelled. `Step` lists them, `Grows` is any number of them.

`Sound` is the invariant of forests that have grown from nothing. Parents are older than their
children and have the same total. A child expires with its parent, or both are over already: the
child expires early only if it was made of a deadline that was over, and what is over stays so. One
step keeps this (`Sound.step`), and no step takes back what a deadline was told (`Onward`).

Whether a deadline is cancelled is said in two ways. The forest computes the first moment at which
it or an ancestor of it is (`cancelledAt`), going from parent to parent with fuel.
`hasCome_cancelledAt_iff` says instead that some deadline was cancelled from which it descends.

The main statement is `grown_consistently`.
-/

set_option autoImplicit false

namespace Slipway.Deadline

/-- A child expires with its parent, or at once because the parent is over. -/
theorem expiry_child_cases (d : Deadline) (now : Int) :
    (d.child now).expiry = d.expiry ∨
      (d.child now).expiry = now ∧ (d.expiry ≤ now ∨ d.isCancelled now = true) := by
  have hexpiry : (d.child now).expiry = now + d.remaining now := rfl
  rw [hexpiry, remaining]
  split
  · exact .inr ⟨Int.add_zero now, .inr ‹_›⟩
  · omega

/-- What a child keeps to from a moment on, however long ago it was made: it is cancelled with its
parent, and it expires with it unless both are over. -/
structure Follows (c d : Deadline) (now : Int) : Prop where
  outerCancel : c.outerCancel = d.cancelledFrom
  expiry : c.expiry = d.expiry ∨
    c.expiry ≤ now ∧ (d.expiry ≤ now ∨ d.isCancelled now = true)

namespace Follows

variable {c d : Deadline} {now t : Int}

/-- A child is cancelled by itself or by its parent. -/
theorem isCancelled_iff (h : c.Follows d now) :
    c.isCancelled t = true ↔ hasCome c.cancel t = true ∨ d.isCancelled t = true := by
  rw [isCancelled, cancelledFrom, hasCome_earlier, Bool.or_eq_true, h.outerCancel]
  rfl

/-- As long as a child has not been cancelled itself, its parent has the same time. -/
theorem remaining_eq (h : c.Follows d now) (hnow : now ≤ t) (hc : ¬ hasCome c.cancel t = true) :
    c.remaining t = d.remaining t := by
  have hcancelled : c.isCancelled t = d.isCancelled t := by
    rw [Bool.eq_iff_iff, h.isCancelled_iff]
    simp [hc]
  rw [remaining, remaining, hcancelled]
  split
  · rfl
  · rcases h.expiry with heq | ⟨hlate, hd | hd⟩
    · rw [heq]
    · omega
    · exact absurd (isCancelled_mono hnow hd) ‹_›

/-- A child never has more time left than its parent. -/
theorem remaining_le (h : c.Follows d now) (hnow : now ≤ t) : c.remaining t ≤ d.remaining t := by
  by_cases hc : hasCome c.cancel t = true
  · have hcancelled : c.isCancelled t = true := h.isCancelled_iff.mpr (.inl hc)
    rw [remaining, if_pos hcancelled]
    exact d.remaining_nonneg t
  · exact Int.le_of_eq (h.remaining_eq hnow hc)

end Follows

namespace Forest

/-! ### Growth -/

/-- What happens to a forest at a moment. -/
inductive Step (f : Forest) (now : Int) : Forest → Int → Prop where
  | wait (t : Int) (h : now ≤ t) : Step f now f t
  | plant (seconds : Binary64) : Step f now (f.plant now seconds) now
  | branch (parent : Nat) : Step f now (f.branch now parent) now
  | cancel (i : Nat) : Step f now (f.cancelAt i now) now

/-- A forest becomes another one as time goes by. -/
inductive Grows (f : Forest) (now : Int) : Forest → Int → Prop where
  | refl : Grows f now f now
  | tail {g h : Forest} {t u : Int} (hg : Grows f now g t) (hstep : Step g t h u) : Grows f now h u

/-- The position of the parent of the deadline at a position. -/
def parent? (f : Forest) (i : Nat) : Option Nat := (f.nodes[i]?).bind Node.parent

/-- Whether a deadline is another one or descends from it. -/
inductive Descends (f : Forest) (i : Nat) : Nat → Prop where
  | self : Descends f i i
  | child {j p : Nat} (hp : f.parent? j = some p) (h : Descends f i p) : Descends f i j

/-- The first moment at which the deadline at a position, or an ancestor of it, is cancelled. -/
def cancelledAt (f : Forest) (i : Nat) : Option Int := f.cancelledFrom f.nodes.length (some i)

/-- Parents are older than their children. -/
def IsOrdered (f : Forest) : Prop := ∀ i p, f.parent? i = some p → p < i

/-! ### Cancellation -/

section
variable {f : Forest} {i j p : Nat} {n : Node} {t : Int}

/-- Only deadlines of the forest have a parent. -/
theorem lt_length_of_parent? (h : f.parent? i = some p) : i < f.nodes.length := by
  obtain ⟨n, hn, -⟩ := Option.bind_eq_some_iff.mp h
  exact (List.getElem?_eq_some_iff.mp hn).1

/-- The parent of a deadline stands in its node. -/
theorem parent?_of_getElem? (h : f.nodes[i]? = some n) : f.parent? i = n.parent := by
  rw [parent?, h, Option.bind_some]

/-- More fuel than there are older deadlines changes nothing. -/
theorem cancelledFrom_of_lt (hf : f.IsOrdered) {fuel : Nat} (h : i < fuel) :
    f.cancelledFrom fuel (some i) = f.cancelledFrom (i + 1) (some i) := by
  induction i using Nat.strongRecOn generalizing fuel with
  | ind i ih =>
    obtain ⟨k, rfl⟩ : ∃ k, fuel = k + 1 := ⟨fuel - 1, by omega⟩
    rw [cancelledFrom, cancelledFrom]
    cases hn : f.nodes[i]? with
    | none => rfl
    | some n =>
      cases hp : n.parent with
      | none => simp [hp, cancelledFrom]
      | some p =>
        -- The parent is older, so the fuel that is left is enough for it either way.
        have hlt : p < i := hf i p (by rw [parent?_of_getElem? hn, hp])
        simp only [hp]
        rw [ih p hlt (show p < k by omega), ih p hlt hlt]

/-- A deadline is cancelled when it or the deadlines above it are, whichever comes first. -/
theorem cancelledAt_eq (hf : f.IsOrdered) (hn : f.nodes[i]? = some n) :
    f.cancelledAt i = earlier n.cancel (f.cancelledFrom f.nodes.length n.parent) := by
  have hi : i < f.nodes.length := (List.getElem?_eq_some_iff.mp hn).1
  rw [cancelledAt, cancelledFrom_of_lt hf hi, cancelledFrom]
  simp only [hn]
  cases hp : n.parent with
  | none => cases i <;> simp [cancelledFrom]
  | some p =>
    have hlt : p < i := hf i p (by rw [parent?_of_getElem? hn, hp])
    rw [cancelledFrom_of_lt hf hlt, cancelledFrom_of_lt hf (show p < f.nodes.length by omega)]

/-- A deadline is cancelled iff it or an ancestor of it has been. -/
theorem hasCome_cancelledAt_iff (hf : f.IsOrdered) (hj : j < f.nodes.length) :
    hasCome (f.cancelledAt j) t = true ↔
      ∃ i n, f.Descends i j ∧ f.nodes[i]? = some n ∧ hasCome n.cancel t = true := by
  -- By the index: parents were made before their children.
  induction j using Nat.strongRecOn with
  | ind j ih =>
    obtain ⟨n, hn⟩ : ∃ n, f.nodes[j]? = some n := ⟨_, List.getElem?_eq_getElem hj⟩
    have hparent := parent?_of_getElem? hn
    rw [cancelledAt_eq hf hn, hasCome_earlier, Bool.or_eq_true]
    constructor
    · rintro (hown | houter)
      · exact ⟨j, n, .self, hn, hown⟩
      · cases hp : n.parent with
        | none => simp [hp, cancelledFrom, hasCome] at houter
        | some p =>
          rw [hp] at houter hparent
          have hlt : p < j := hf j p hparent
          obtain ⟨i, m, hi, hm, hcome⟩ := (ih p hlt (by omega)).mp houter
          exact ⟨i, m, .child hparent hi, hm, hcome⟩
    · rintro ⟨i, m, hi, hm, hcome⟩
      -- The one that was cancelled is the deadline itself or an ancestor of its parent.
      cases hi with
      | self =>
        rw [hn] at hm
        cases hm
        exact .inl hcome
      | @child _ p hp hi =>
        have hlt : p < j := hf j p hp
        rw [hparent] at hp
        rw [hp]
        exact .inr ((ih p hlt (by omega)).mpr ⟨i, m, hi, hm, hcome⟩)

/-- The deadline at a position, read off its node. -/
theorem get?_eq_some_iff {d : Deadline} :
    f.get? i = some d ↔ ∃ n, f.nodes[i]? = some n ∧
      d = ⟨n.total, n.expiry, n.cancel, f.cancelledFrom f.nodes.length n.parent⟩ := by
  rw [get?, Option.map_eq_some_iff]
  simp [eq_comm]

/-- A deadline is its node, with the cancellations above it. -/
theorem get?_of_getElem? (hn : f.nodes[i]? = some n) :
    f.get? i =
      some ⟨n.total, n.expiry, n.cancel, f.cancelledFrom f.nodes.length n.parent⟩ :=
  get?_eq_some_iff.mpr ⟨n, hn, rfl⟩

/-- Read off as a deadline, a node has the cancellation of its whole line. -/
theorem cancelledFrom_of_get? {d : Deadline} (hf : f.IsOrdered) (hd : f.get? i = some d) :
    d.cancelledFrom = f.cancelledAt i := by
  obtain ⟨n, hn, rfl⟩ := get?_eq_some_iff.mp hd
  rw [cancelledAt_eq hf hn]
  rfl

end

/-! ### Nodes -/

/-- What the cancellation of the deadline at a position makes of the node at another. -/
def cancelNode (i : Nat) (moment : Int) (j : Nat) (n : Node) : Node :=
  if i = j then { n with cancel := earlier n.cancel (some moment) } else n

section
variable {f : Forest} {i j : Nat} {n m : Node} {moment : Int}

/-- A cancellation leaves every node in its place. -/
theorem getElem?_cancelAt (hn : f.nodes[j]? = some n) :
    (f.cancelAt i moment).nodes[j]? = some (cancelNode i moment j n) := by
  rw [cancelAt, List.getElem?_modify, hn]
  rfl

/-- Every node after a cancellation was there before. -/
theorem getElem?_of_cancelAt (hm : (f.cancelAt i moment).nodes[j]? = some m) :
    ∃ n, f.nodes[j]? = some n ∧ m = cancelNode i moment j n := by
  rw [cancelAt, List.getElem?_modify] at hm
  obtain ⟨n, hn, rfl⟩ := Option.map_eq_some_iff.mp hm
  exact ⟨n, hn, rfl⟩

/-- A node of a forest with one more node is an old one or the new one. -/
theorem getElem?_of_append (hm : (f.nodes ++ [n])[i]? = some m) :
    f.nodes[i]? = some m ∨ i = f.nodes.length ∧ m = n := by
  rcases Nat.lt_or_ge i f.nodes.length with hlt | hge
  · rw [List.getElem?_append_left hlt] at hm
    exact .inl hm
  · rw [List.getElem?_append_right hge, List.getElem?_singleton] at hm
    split at hm
    · exact .inr ⟨by omega, (Option.some.inj hm).symm⟩
    · cases hm

end

/-! ### What is never taken back -/

/-- Whether a forest is a later state of another: all its deadlines are still there, with the same
total, end and parent, and what was cancelled is cancelled. -/
structure Onward (f : Forest) (now : Int) (g : Forest) (t : Int) : Prop where
  le : now ≤ t
  node : ∀ (i : Nat) (n : Node), f.nodes[i]? = some n →
    ∃ m, g.nodes[i]? = some m ∧ m.total = n.total ∧ m.expiry = n.expiry ∧ m.parent = n.parent ∧
      ∀ u, hasCome n.cancel u = true → hasCome m.cancel u = true

namespace Onward

variable {f g h : Forest} {now t u : Int} {i j : Nat}

/-- A forest goes on from itself. -/
theorem refl (f : Forest) (now : Int) : f.Onward now f now where
  le := Int.le_refl now
  node := fun _ n hn => ⟨n, hn, rfl, rfl, rfl, fun _ hc => hc⟩

/-- Going on twice is going on. -/
theorem trans (hfg : f.Onward now g t) (hgh : g.Onward t h u) : f.Onward now h u where
  le := Int.le_trans hfg.le hgh.le
  node := by
    intro i n hn
    obtain ⟨m, hm, htotal, hexpiry, hparent, hcancel⟩ := hfg.node i n hn
    obtain ⟨k, hk, htotal', hexpiry', hparent', hcancel'⟩ := hgh.node i m hm
    exact ⟨k, hk, htotal'.trans htotal, hexpiry'.trans hexpiry, hparent'.trans hparent,
      fun v hv => hcancel' v (hcancel v hv)⟩

/-- More deadlines take nothing back. -/
theorem of_append (f : Forest) (now : Int) (n : Node) : f.Onward now ⟨f.nodes ++ [n]⟩ now where
  le := Int.le_refl now
  node := by
    intro i m hm
    refine ⟨m, ?_, rfl, rfl, rfl, fun _ hc => hc⟩
    rw [List.getElem?_append_left (List.getElem?_eq_some_iff.mp hm).1, hm]

/-- A cancellation goes on. -/
theorem of_cancelAt (f : Forest) (now : Int) (i : Nat) (moment : Int) :
    f.Onward now (f.cancelAt i moment) now where
  le := Int.le_refl now
  node := by
    intro j n hn
    refine ⟨cancelNode i moment j n, getElem?_cancelAt hn, ?_⟩
    unfold cancelNode
    split
    · refine ⟨rfl, rfl, rfl, fun u hc => ?_⟩
      rw [hasCome_earlier, hc, Bool.true_or]
    · exact ⟨rfl, rfl, rfl, fun _ hc => hc⟩

/-- Every step goes on. -/
theorem of_step (h : f.Step now g t) : f.Onward now g t := by
  cases h with
  | wait _ hle => exact ⟨hle, (refl f now).node⟩
  | plant seconds => exact of_append f now _
  | branch parent =>
    unfold branch
    split
    · exact refl f now
    · exact of_append f now _
  | cancel i => exact of_cancelAt f now i now

/-- Parents stay. -/
theorem parent? (hfg : f.Onward now g t) {p : Nat} (hp : f.parent? i = some p) :
    g.parent? i = some p := by
  obtain ⟨n, hn, hnp⟩ := Option.bind_eq_some_iff.mp hp
  obtain ⟨m, hm, -, -, hparent, -⟩ := hfg.node i n hn
  rw [parent?_of_getElem? hm, hparent, hnp]

/-- Descent stays. -/
theorem descends (hfg : f.Onward now g t) (h : f.Descends i j) : g.Descends i j := by
  induction h with
  | self => exact .self
  | child hp _ ih => exact .child (hfg.parent? hp) ih

/-- No deadline is lost. -/
theorem lt_length (hfg : f.Onward now g t) (hi : i < f.nodes.length) : i < g.nodes.length := by
  obtain ⟨m, hm, -⟩ := hfg.node i _ (List.getElem?_eq_getElem hi)
  exact (List.getElem?_eq_some_iff.mp hm).1

/-- What was cancelled stays so. -/
theorem hasCome_cancelledAt (hfg : f.Onward now g t) (hf : f.IsOrdered) (hg : g.IsOrdered)
    (hi : i < f.nodes.length) (hcome : hasCome (f.cancelledAt i) u = true) :
    hasCome (g.cancelledAt i) u = true := by
  obtain ⟨j, n, hj, hn, hc⟩ := (hasCome_cancelledAt_iff hf hi).mp hcome
  obtain ⟨m, hm, -, -, -, hcancel⟩ := hfg.node j n hn
  exact (hasCome_cancelledAt_iff hg (hfg.lt_length hi)).mpr
    ⟨j, m, hfg.descends hj, hm, hcancel u hc⟩

end Onward

/-! ### The invariant -/

/-- What holds of a forest that has grown until a moment. -/
structure Sound (f : Forest) (now : Int) : Prop where
  ordered : f.IsOrdered
  total : ∀ (i : Nat) (n : Node) (p : Nat) (q : Node), f.nodes[i]? = some n → n.parent = some p →
    f.nodes[p]? = some q → n.total = q.total
  /-- A child expires with its parent, or both are over. -/
  expiry : ∀ (i : Nat) (n : Node) (p : Nat) (q : Node), f.nodes[i]? = some n → n.parent = some p →
    f.nodes[p]? = some q →
      n.expiry = q.expiry ∨
        n.expiry ≤ now ∧ (q.expiry ≤ now ∨ hasCome (f.cancelledAt p) now = true)

/-- The empty forest is sound. -/
theorem sound_empty (now : Int) : Sound .empty now where
  ordered := fun i p h => by simp [parent?, empty] at h
  total := fun i n p q hn => by simp [empty] at hn
  expiry := fun i n p q hn => by simp [empty] at hn

namespace Sound

variable {f g : Forest} {now t : Int}

/-- What is sound stays so as time goes by. -/
theorem wait (hf : f.Sound now) (h : now ≤ t) : f.Sound t where
  ordered := hf.ordered
  total := hf.total
  expiry := by
    intro i n p q hn hp hq
    refine (hf.expiry i n p q hn hp hq).imp_right ?_
    rintro ⟨hlate, hover⟩
    refine ⟨Int.le_trans hlate h, hover.imp (fun hq => Int.le_trans hq h) (hasCome_mono h)⟩

/-- One more deadline that has no parent, or keeps to one that is there. -/
theorem append (hf : f.Sound now) {n : Node}
    (hparent : ∀ p, n.parent = some p → ∃ q, f.nodes[p]? = some q ∧ n.total = q.total ∧
      (n.expiry = q.expiry ∨
        n.expiry ≤ now ∧ (q.expiry ≤ now ∨ hasCome (f.cancelledAt p) now = true))) :
    (Forest.mk (f.nodes ++ [n])).Sound now := by
  have honward := Onward.of_append f now n
  have hold : ∀ {p : Nat} {q : Node}, f.nodes[p]? = some q → (f.nodes ++ [n])[p]? = some q := by
    intro p q hq
    rw [List.getElem?_append_left (List.getElem?_eq_some_iff.mp hq).1, hq]
  have hordered : (Forest.mk (f.nodes ++ [n])).IsOrdered := by
    intro i p hp
    obtain ⟨m, hm, hmp⟩ := Option.bind_eq_some_iff.mp hp
    rcases getElem?_of_append hm with hm | ⟨rfl, rfl⟩
    · exact hf.ordered i p (by rw [parent?_of_getElem? hm, hmp])
    · obtain ⟨q, hq, -⟩ := hparent p hmp
      exact (List.getElem?_eq_some_iff.mp hq).1
  -- The parent of an old node is older, and that of the new node is there already.
  have hkeeps : ∀ (i : Nat) (m : Node) (p : Nat) (q : Node), (f.nodes ++ [n])[i]? = some m →
      m.parent = some p → (f.nodes ++ [n])[p]? = some q → m.total = q.total ∧ f.nodes[p]? = some q ∧
        (m.expiry = q.expiry ∨
          m.expiry ≤ now ∧ (q.expiry ≤ now ∨ hasCome (f.cancelledAt p) now = true)) := by
    intro i m p q hm hmp hq
    rcases getElem?_of_append hm with hm | ⟨-, rfl⟩
    · have hlt : p < i := hf.ordered i p (by rw [parent?_of_getElem? hm, hmp])
      have hi : i < f.nodes.length := (List.getElem?_eq_some_iff.mp hm).1
      rw [List.getElem?_append_left (by omega)] at hq
      exact ⟨hf.total i m p q hm hmp hq, hq, hf.expiry i m p q hm hmp hq⟩
    · obtain ⟨q', hq', htotal, hexpiry⟩ := hparent p hmp
      cases (hold hq').symm.trans hq
      exact ⟨htotal, hq', hexpiry⟩
  refine ⟨hordered, fun i m p q hm hmp hq => (hkeeps i m p q hm hmp hq).1, ?_⟩
  intro i m p q hm hmp hq
  obtain ⟨-, hq', hexpiry⟩ := hkeeps i m p q hm hmp hq
  have hlt : p < f.nodes.length := (List.getElem?_eq_some_iff.mp hq').1
  exact hexpiry.imp_right (And.imp_right (Or.imp_right
    (honward.hasCome_cancelledAt hf.ordered hordered hlt)))

/-- A new root keeps a forest sound. -/
theorem plant (hf : f.Sound now) (seconds : Binary64) : (f.plant now seconds).Sound now :=
  hf.append fun p hp => by cases hp

/-- A new child keeps a forest sound. -/
theorem branch (hf : f.Sound now) (parent : Nat) : (f.branch now parent).Sound now := by
  unfold Forest.branch
  split
  · exact hf
  · rename_i d hd
    have hcancelled := cancelledFrom_of_get? hf.ordered hd
    obtain ⟨q, hq, hd'⟩ := get?_eq_some_iff.mp hd
    refine hf.append fun p hp => ?_
    cases hp
    refine ⟨q, hq, by rw [hd']; rfl, ?_⟩
    have hexpiry : d.expiry = q.expiry := by rw [hd']
    -- The only child that expires before its parent is one of a parent that is over.
    rcases d.expiry_child_cases now with heq | ⟨heq, hover⟩
    · exact .inl (heq.trans hexpiry)
    · refine .inr ⟨Int.le_of_eq heq, ?_⟩
      rwa [← hexpiry, ← hcancelled]

/-- A cancellation keeps a forest sound. -/
theorem cancelAt (hf : f.Sound now) (i : Nat) : (f.cancelAt i now).Sound now := by
  have honward := Onward.of_cancelAt f now i now
  -- Only the moments of cancellation change, never totals, expiries or parents.
  have hnode : ∀ {j : Nat} {m : Node}, (f.cancelAt i now).nodes[j]? = some m →
      ∃ n, f.nodes[j]? = some n ∧ m.total = n.total ∧ m.expiry = n.expiry ∧
        m.parent = n.parent := by
    intro j m hm
    obtain ⟨n, hn, rfl⟩ := getElem?_of_cancelAt hm
    refine ⟨n, hn, ?_⟩
    unfold cancelNode
    split <;> exact ⟨rfl, rfl, rfl⟩
  have hordered : (f.cancelAt i now).IsOrdered := by
    intro j p hp
    obtain ⟨m, hm, hmp⟩ := Option.bind_eq_some_iff.mp hp
    obtain ⟨n, hn, -, -, hparent⟩ := hnode hm
    exact hf.ordered j p (by rw [parent?_of_getElem? hn, ← hparent, hmp])
  -- Totals are as before, and expiries too, as no cancellation is taken back.
  refine ⟨hordered, ?_, ?_⟩
  · intro j m p q hm hmp hq
    obtain ⟨n, hn, htotal, -, hparent⟩ := hnode hm
    obtain ⟨n', hn', htotal', -, -⟩ := hnode hq
    rw [htotal, htotal']
    exact hf.total j n p n' hn (hparent ▸ hmp) hn'
  · intro j m p q hm hmp hq
    obtain ⟨n, hn, -, hexpiry, hparent⟩ := hnode hm
    obtain ⟨n', hn', -, hexpiry', -⟩ := hnode hq
    rw [hexpiry, hexpiry']
    exact (hf.expiry j n p n' hn (hparent ▸ hmp) hn').imp_right (And.imp_right (Or.imp_right
      (honward.hasCome_cancelledAt hf.ordered hordered (List.getElem?_eq_some_iff.mp hn').1)))

/-- Every step keeps a forest sound. -/
theorem step (hf : f.Sound now) (h : f.Step now g t) : g.Sound t := by
  cases h with
  | wait _ hle => exact hf.wait hle
  | plant seconds => exact hf.plant seconds
  | branch parent => exact hf.branch parent
  | cancel i => exact hf.cancelAt i

end Sound

section
variable {f g : Forest} {start now t : Int}

/-- A forest that has grown has gone on. -/
theorem Grows.onward (h : f.Grows now g t) : f.Onward now g t := by
  induction h with
  | refl => exact .refl f now
  | tail _ hstep ih => exact ih.trans (.of_step hstep)

/-- A forest that has grown from a sound one is sound. -/
theorem Grows.sound (h : f.Grows now g t) (hf : f.Sound now) : g.Sound t := by
  induction h with
  | refl => exact hf
  | tail _ hstep ih => exact ih.step hstep

end

/-! ### The deadlines of a sound forest -/

section
variable {f g : Forest} {i j p : Nat} {c d : Deadline} {start now t : Int}

/-- In a sound forest children follow their parents. -/
theorem Sound.follows (hf : f.Sound now) (hp : f.parent? i = some p) (hc : f.get? i = some c)
    (hd : f.get? p = some d) : c.Follows d now := by
  have hcancelled := cancelledFrom_of_get? hf.ordered hd
  obtain ⟨n, hn, rfl⟩ := get?_eq_some_iff.mp hc
  obtain ⟨q, hq, hd'⟩ := get?_eq_some_iff.mp hd
  have hnp : n.parent = some p := by rw [← parent?_of_getElem? hn, hp]
  have hexpiry : d.expiry = q.expiry := by rw [hd']
  refine ⟨?_, ?_⟩
  · rw [hcancelled, cancelledAt, ← hnp]
  · rw [hexpiry, isCancelled, hcancelled]
    exact hf.expiry i n p q hn hnp hq

/-- A deadline has no more time later than it had before, and what it was told it is not told
otherwise. -/
theorem Onward.get? (hfg : f.Onward now g t) (hf : f.Sound now) (hg : g.Sound t)
    (hd : f.get? i = some d) :
    ∃ e, g.get? i = some e ∧ e.remaining t ≤ d.remaining now ∧
      (d.isCancelled now = true → e.isCancelled t = true) ∧ e.total = d.total := by
  have hcancelled := cancelledFrom_of_get? hf.ordered hd
  obtain ⟨n, hn, hd'⟩ := get?_eq_some_iff.mp hd
  obtain ⟨m, hm, htotal, hexpiry, -, -⟩ := hfg.node i n hn
  have he := get?_of_getElem? hm
  refine ⟨_, he, ?_⟩
  generalize he' :
    (⟨m.total, m.expiry, m.cancel, g.cancelledFrom g.nodes.length m.parent⟩ : Deadline) = e at he ⊢
  have hi : i < f.nodes.length := (List.getElem?_eq_some_iff.mp hn).1
  have hstays : d.isCancelled now = true → e.isCancelled t = true := by
    rw [isCancelled, isCancelled, hcancelled, cancelledFrom_of_get? hg.ordered he]
    intro hcome
    exact hfg.hasCome_cancelledAt hf.ordered hg.ordered hi (hasCome_mono hfg.le hcome)
  refine ⟨?_, hstays, by rw [← he', hd', htotal]⟩
  -- A deadline that is not cancelled yet ends when it did, and it is later now.
  by_cases hcome : e.isCancelled t = true
  · rw [remaining, if_pos hcome]
    exact d.remaining_nonneg now
  · have hends : e.expiry = d.expiry := by rw [← he', hd', hexpiry]
    have hle := hfg.le
    rw [remaining, remaining, if_neg hcome, if_neg (fun h => hcome (hstays h)), hends]
    omega

/-- Descendants were made later. -/
theorem Descends.le (hf : f.IsOrdered) (h : f.Descends i j) : i ≤ j := by
  induction h with
  | self => exact Nat.le_refl i
  | @child k p hp _ ih => exact Nat.le_trans ih (Nat.le_of_lt (hf k p hp))

/-- Who cancels a deadline cancels what descends from it. -/
theorem isCancelled_cancelAt (hf : f.Sound now) (hij : f.Descends i j)
    (hd : (f.cancelAt i now).get? j = some d) (ht : now ≤ t) : d.isCancelled t = true := by
  have honward := Onward.of_cancelAt f now i now
  have hsound := hf.cancelAt i
  obtain ⟨m, hm, -⟩ := get?_eq_some_iff.mp hd
  have hj : j < (f.cancelAt i now).nodes.length := (List.getElem?_eq_some_iff.mp hm).1
  have hlength : (f.cancelAt i now).nodes.length = f.nodes.length := List.length_modify _ _ _
  have hi : i < f.nodes.length := by
    have := hij.le hf.ordered
    omega
  rw [isCancelled, cancelledFrom_of_get? hsound.ordered hd]
  -- The cancelled deadline is still an ancestor, and its moment has come.
  refine (hasCome_cancelledAt_iff hsound.ordered hj).mpr ⟨i, _, honward.descends hij,
    getElem?_cancelAt (List.getElem?_eq_getElem hi), ?_⟩
  rw [cancelNode, if_pos rfl, hasCome_earlier, Bool.or_eq_true]
  exact .inr (decide_eq_true ht)

/-- Who does not descend from a deadline does not see its cancellation. -/
theorem cancelledFrom_cancelAt {moment : Int} (fuel : Nat) (hij : ¬ f.Descends i j) :
    (f.cancelAt i moment).cancelledFrom fuel (some j) = f.cancelledFrom fuel (some j) := by
  -- Up the line of parents: none of them is the one that is cancelled.
  induction fuel generalizing j with
  | zero => rfl
  | succ fuel ih =>
    rw [cancelledFrom, cancelledFrom]
    cases hn : f.nodes[j]? with
    | none =>
      have hm : (f.cancelAt i moment).nodes[j]? = none := by
        rw [cancelAt, List.getElem?_modify, hn]
        rfl
      rw [hm]
    | some n =>
      have hne : i ≠ j := by
        rintro rfl
        exact hij .self
      rw [getElem?_cancelAt hn, cancelNode, if_neg hne]
      cases hp : n.parent with
      | none => simp [hp, cancelledFrom]
      | some p =>
        simp only [hp]
        rw [ih fun h => hij (.child (by rw [parent?_of_getElem? hn, hp]) h)]

/-- What does not descend from a cancelled deadline stays as it is. -/
theorem get?_cancelAt_of_not_descends {moment : Int} (hij : ¬ f.Descends i j)
    (hd : f.get? j = some d) : (f.cancelAt i moment).get? j = some d := by
  obtain ⟨n, hn, rfl⟩ := get?_eq_some_iff.mp hd
  have hne : i ≠ j := by
    rintro rfl
    exact hij .self
  have hm : (f.cancelAt i moment).nodes[j]? = some n := by
    rw [getElem?_cancelAt hn, cancelNode, if_neg hne]
  have hlength : (f.cancelAt i moment).nodes.length = f.nodes.length := List.length_modify _ _ _
  rw [get?_of_getElem? hm, hlength]
  cases hp : n.parent with
  | none => simp [cancelledFrom]
  | some p =>
    rw [cancelledFrom_cancelAt _ fun h => hij (.child (by rw [parent?_of_getElem? hn, hp]) h)]

/-- Every deadline descends from one without a parent, which was told its total. -/
theorem Sound.exists_root (hf : f.Sound now) (hc : f.get? i = some c) :
    ∃ r d, f.Descends r i ∧ f.parent? r = none ∧ f.get? r = some d ∧ c.total = d.total := by
  -- Up to the parent, which was made before and has the same total.
  induction i using Nat.strongRecOn generalizing c with
  | ind i ih =>
    obtain ⟨n, hn, rfl⟩ := get?_eq_some_iff.mp hc
    cases hp : f.parent? i with
    | none => exact ⟨i, _, .self, hp, hc, rfl⟩
    | some p =>
      have hlt : p < i := hf.ordered i p hp
      have hi : i < f.nodes.length := lt_length_of_parent? hp
      have hq : f.nodes[p]? = some f.nodes[p] := List.getElem?_eq_getElem (by omega)
      obtain ⟨r, d, hr, hroot, hd, htotal⟩ := ih p hlt (get?_of_getElem? hq)
      refine ⟨r, d, .child hp hr, hroot, hd, ?_⟩
      rw [← htotal]
      exact hf.total i n p _ hn (by rw [← parent?_of_getElem? hn, hp]) hq

/-- A new root is a deadline that starts now. -/
theorem get?_plant (f : Forest) (now : Int) (seconds : Binary64) :
    (f.plant now seconds).get? f.nodes.length = some (.start now seconds) := by
  have hm : (f.plant now seconds).nodes[f.nodes.length]? =
      some ⟨seconds, (Deadline.start now seconds).expiry, none, none⟩ :=
    List.getElem?_concat_length
  rw [get?_of_getElem? hm]
  simp [cancelledFrom, Deadline.start]

/-- A new deadline does not count for those that are there. -/
theorem cancelledFrom_append (hf : f.IsOrdered) (n : Node) (fuel : Nat) (hi : i < f.nodes.length) :
    (Forest.mk (f.nodes ++ [n])).cancelledFrom fuel (some i) = f.cancelledFrom fuel (some i) := by
  -- The line of parents stays below the new node.
  induction fuel generalizing i with
  | zero => rfl
  | succ fuel ih =>
    have hm : f.nodes[i]? = some f.nodes[i] := List.getElem?_eq_getElem hi
    rw [cancelledFrom, cancelledFrom, List.getElem?_append_left hi, hm]
    cases hp : f.nodes[i].parent with
    | none => simp [hp, cancelledFrom]
    | some p =>
      have hlt : p < i := hf i p (by rw [parent?_of_getElem? hm, hp])
      simp only [hp]
      rw [ih (by omega)]

/-- The child that a forest makes of a deadline is the child of that deadline. -/
theorem Sound.get?_branch (hf : f.Sound now) (hd : f.get? p = some d) :
    (f.branch now p).get? f.nodes.length = some (d.child now) ∧
      (f.branch now p).parent? f.nodes.length = some p := by
  obtain ⟨q, hq, -⟩ := get?_eq_some_iff.mp hd
  have hp : p < f.nodes.length := (List.getElem?_eq_some_iff.mp hq).1
  have hbranch : f.branch now p =
      ⟨f.nodes ++ [⟨d.total, (d.child now).expiry, none, some p⟩]⟩ := by
    rw [Forest.branch, hd]
    rfl
  have hm : (f.branch now p).nodes[f.nodes.length]? =
      some ⟨d.total, (d.child now).expiry, none, some p⟩ := by
    rw [hbranch]
    exact List.getElem?_concat_length
  refine ⟨?_, parent?_of_getElem? hm⟩
  -- The new node lies above no older one, so the line of its parent reads as before.
  have houter : (f.branch now p).cancelledFrom (f.branch now p).nodes.length (some p) =
      d.cancelledFrom := by
    rw [cancelledFrom_of_get? hf.ordered hd, hbranch, cancelledFrom_append hf.ordered _ _ hp,
      cancelledAt, cancelledFrom_of_lt hf.ordered hp, cancelledFrom_of_lt hf.ordered]
    simp only [List.length_append]
    omega
  rw [get?_of_getElem? hm]
  simp only [houter]
  rfl

/-- Deadlines that were made and cancelled in any order, as time went by, are consistent from then
on.

A child never has more time than its parent, and it has as much as long as it has not been cancelled
itself. No deadline gets more time, is expired or cancelled no longer, or is told another total,
however the forest grows on. Cancelling a deadline ends it and all that descend from it, at once and
for good, and leaves all others as they are. Every deadline has the total of the root from which it
descends. A root has the seconds that it is given, and a child is made of what its parent is then.
-/
theorem grown_consistently (hf : Forest.empty.Grows start f now) (hg : f.Grows now g t) :
    (∀ i p c d, f.parent? i = some p → f.get? i = some c → f.get? p = some d → ∀ u, now ≤ u →
      0 ≤ c.remaining u ∧ c.remaining u ≤ d.remaining u ∧
        (¬ hasCome c.cancel u = true → c.remaining u = d.remaining u)) ∧
    (∀ i d, f.get? i = some d → ∃ e, g.get? i = some e ∧ e.remaining t ≤ d.remaining now ∧
      (d.isExpired now = true → e.isExpired t = true) ∧
      (d.isCancelled now = true → e.isCancelled t = true) ∧ e.total = d.total) ∧
    (∀ i j d, f.get? j = some d → ∃ e, (f.cancelAt i now).get? j = some e ∧
      (f.Descends i j → ∀ u, now ≤ u → e.isCancelled u = true ∧ e.isExpired u = true) ∧
      (¬ f.Descends i j → e = d)) ∧
    (∀ i c, f.get? i = some c → ∃ r d, f.Descends r i ∧ f.parent? r = none ∧ f.get? r = some d ∧
      c.total = d.total) ∧
    (∀ seconds, (f.plant now seconds).get? f.nodes.length = some (.start now seconds)) ∧
    (∀ p d, f.get? p = some d → (f.branch now p).get? f.nodes.length = some (d.child now) ∧
      (f.branch now p).parent? f.nodes.length = some p) := by
  have hsound : f.Sound now := hf.sound (sound_empty start)
  refine ⟨?_, ?_, ?_, fun i c hc => hsound.exists_root hc, get?_plant f now,
    fun p d hd => hsound.get?_branch hd⟩
  · intro i p c d hp hc hd u hu
    have hfollows := hsound.follows hp hc hd
    exact ⟨c.remaining_nonneg u, hfollows.remaining_le hu, hfollows.remaining_eq hu⟩
  · intro i d hd
    obtain ⟨e, he, hremaining, hcancelled, htotal⟩ := hg.onward.get? hsound (hg.sound hsound) hd
    refine ⟨e, he, hremaining, ?_, hcancelled, htotal⟩
    -- Expired is having no time left, and time only runs out.
    simp only [isExpired, decide_eq_true_iff]
    omega
  · intro i j d hd
    -- A cancellation reaches exactly the descendants.
    by_cases hij : f.Descends i j
    · obtain ⟨e, he, -⟩ := (Onward.of_cancelAt f now i now).get? hsound (hsound.cancelAt i) hd
      refine ⟨e, he, fun _ u hu => ?_, fun h => absurd hij h⟩
      have hcancelled := isCancelled_cancelAt hsound hij he hu
      exact ⟨hcancelled, isExpired_of_isCancelled hcancelled⟩
    · exact ⟨d, get?_cancelAt_of_not_descends hij hd, fun h => absurd h hij, fun _ => rfl⟩

end

/-- A deadline of five seconds, with a child and a child of that. -/
def lineage : Forest :=
  ((Forest.empty.plant 0 (Binary64.ofNat 5)).branch Clock.second 0).branch (2 * Clock.second) 1

/-- When the child is cancelled its own child is over with it, and the first deadline is as it was.
-/
theorem grown_consistently_of_cancelled_child :
    Forest.empty.Grows 0 lineage (2 * Clock.second) ∧
    lineage.Grows (2 * Clock.second) (lineage.cancelAt 1 (2 * Clock.second)) (3 * Clock.second) ∧
    (∃ e, (lineage.cancelAt 1 (2 * Clock.second)).get? 2 = some e ∧
      e.isExpired (3 * Clock.second) = true) ∧
    (lineage.cancelAt 1 (2 * Clock.second)).get? 0 = lineage.get? 0 := by
  have hf : Forest.empty.Grows 0 lineage (2 * Clock.second) :=
    .tail
      (.tail (.tail (.tail (.tail .refl (.plant _)) (.wait Clock.second (by decide))) (.branch 0))
      (.wait (2 * Clock.second) (by decide))) (.branch 1)
  have hg : lineage.Grows (2 * Clock.second) (lineage.cancelAt 1 (2 * Clock.second))
      (3 * Clock.second) :=
    .tail (.tail .refl (.cancel 1)) (.wait _ (by decide))
  have hcancel := (grown_consistently hf hg).2.2.1
  -- The root has no parent, so it descends from nothing but itself.
  have hroot : ¬ lineage.Descends 1 0 := by
    intro h
    cases h with
    | child hp _ => cases hp
  obtain ⟨e, he, hbelow, -⟩ := hcancel 1 2 _ rfl
  obtain ⟨d, hd, -, hother⟩ := hcancel 1 0 _ rfl
  refine ⟨hf, hg, ⟨e, he, ?_⟩, ?_⟩
  · exact (hbelow (.child rfl .self) _ (by decide)).2
  · rw [hd, hother hroot]
    rfl

end Forest
end Slipway.Deadline
