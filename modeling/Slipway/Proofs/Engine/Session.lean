import Slipway.Engine.Session

/-!
# `Slipway.Proofs.Engine.Session`: what calls send and how they are answered

A session knows in advance what it answers to each request. `answer` reads that off its queues, and
`sending` is the session after one request. An `Exchange` lists requests with their answers, and
`s.Answers log t` says that the session `s` answers so and becomes `t`. Since a session also keeps
what it was sent, nothing can be sent that is not in the exchange (`Answers.sent`).

`x.Meets s Q` says of a call what it sends and what it comes to: from the session `s` there is an
exchange after which it gives a result, and `Q` is true of both. A call is proved to meet a
postcondition by one rule for each way in which calls are put together. Those that rename or pass
over a refusal change the result only (`named`, `passed`), so their rules speak of the call inside.
-/

set_option autoImplicit false

namespace Slipway.Engine

/-- Requests with their answers, the earliest first. An answer is a refusal, or nothing if the
request is granted. -/
abbrev Exchange := List (Request × Option Fault)

namespace Session

/-- How the next request is answered. -/
def answer (s : Session) (r : Request) : Option Fault := (s.queue r.operation).head?.join

/-- The session after a request. -/
def sending (s : Session) (r : Request) : Session :=
  { s with turns := useTurn r.operation s.turns, sent := s.sent ++ [r] }

/-- Whether a session answers requests as an exchange says, and is another session after them. -/
def Answers : Session → Exchange → Session → Prop
  | s, [], t => s = t
  | s, (r, reply) :: rest, t => s.answer r = reply ∧ (s.sending r).Answers rest t

section
variable {s t u : Session} {log more : Exchange}

/-- Exchanges that follow one another are one exchange. -/
theorem Answers.append (h : s.Answers log t) (hmore : t.Answers more u) :
    s.Answers (log ++ more) u := by
  induction log generalizing s with
  | nil => exact h ▸ hmore
  | cons x rest ih => exact ⟨h.1, ih h.2⟩

/-- What a session was sent is what an exchange says, after what it had been sent before. -/
theorem Answers.sent (h : s.Answers log t) : t.sent = s.sent ++ log.map Prod.fst := by
  induction log generalizing s with
  | nil => rw [← (show s = t from h), List.map_nil, List.append_nil]
  | cons x rest ih =>
    rw [ih h.2, List.map_cons]
    simp [sending]

/-- No request changes what the engine says of its container. -/
theorem Answers.facts (h : s.Answers log t) : t.facts = s.facts := by
  induction log generalizing s with
  | nil => exact congrArg Session.facts h.symm
  | cons x rest ih => exact (ih h.2).trans rfl

end

end Session

namespace Call

variable {α β : Type} {s : Session} {failure : String → Failure} {passes : EngineRefusal → Bool}

/-- The result of a request that is answered so. -/
def granted : Option Fault → Except Fault Unit
  | none => .ok ()
  | some e => .error e

/-- A result in which a refusal that is an answer of the engine is a failure. -/
def named (failure : String → Failure) : Except Fault α → Except Fault α
  | .error (.engine refusal text) =>
    if refusal.isAnswer then .error (.failure (failure text)) else .error (.engine refusal text)
  | r => r

/-- Naming a failure leaves what was given as it is. -/
theorem named_eq_ok {r : Except Fault α} {x : α} : named failure r = .ok x ↔ r = .ok x := by
  unfold named
  split
  · split <;> simp
  · exact Iff.rfl

/-- A result in which a refusal that passes a test does not matter. -/
def passed (passes : EngineRefusal → Bool) : Except Fault Unit → Except Fault Unit
  | .error (.engine refusal text) =>
    if passes refusal then .ok () else .error (.engine refusal text)
  | r => r

/-- A call whose refusals are named runs as before and names its result. -/
theorem refusedAs_eq (x : Call α) (s : Session) :
    refusedAs failure x s = (named failure (x s).1, (x s).2) := by
  simp only [refusedAs, Bind.bind, andThen, attempt]
  generalize x s = p
  obtain ⟨r, t⟩ := p
  match r with
  | .ok a => rfl
  | .error (.engine refusal text) =>
    simp only [named]
    split <;> rfl
  | .error (.failure _) | .error (.request _ _) | .error (.defect _) | .error (.other _ _)
  | .error (.interrupt _) => rfl

/-- A call whose refusals are passed over runs as before and clears its result. -/
theorem tolerating_eq (x : Call Unit) (s : Session) :
    tolerating passes x s = (passed passes (x s).1, (x s).2) := by
  simp only [tolerating, Bind.bind, andThen, attempt]
  generalize x s = p
  obtain ⟨r, t⟩ := p
  match r with
  | .ok a => rfl
  | .error (.engine refusal text) =>
    simp only [passed]
    split <;> rfl
  | .error (.failure _) | .error (.request _ _) | .error (.defect _) | .error (.other _ _)
  | .error (.interrupt _) => rfl

/-! ### What a call meets -/

/-- From a session on, a call sends requests and gives a result of which a postcondition is true. -/
def Meets (x : Call α) (s : Session) (Q : Exchange → Except Fault α → Prop) : Prop :=
  ∃ log, s.Answers log (x s).2 ∧ Q log (x s).1

namespace Meets

variable {x : Call α} {f : α → Call β} {P Q : Exchange → Except Fault α → Prop}
  {R : Exchange → Except Fault β → Prop}

/-- What a call meets may be weakened. -/
theorem mono (hx : x.Meets s P) (h : ∀ log r, P log r → Q log r) : x.Meets s Q := by
  obtain ⟨log, hlog, hr⟩ := hx
  exact ⟨log, hlog, h log _ hr⟩

/-- A value is given without a request. -/
theorem give {a : α} (h : Q [] (.ok a)) : (Call.give a).Meets s Q := ⟨[], rfl, h⟩

/-- A failure needs no request. -/
theorem fail {e : Fault} (h : Q [] (.error e)) : (Call.fail e : Call α).Meets s Q := ⟨[], rfl, h⟩

/-- A result that is known needs no request. -/
theorem ofExcept {r : Except Fault α} (h : Q [] r) : (Call.ofExcept r).Meets s Q := ⟨[], rfl, h⟩

/-- A call that leaves the session as it is has sent nothing. -/
theorem gives {r : Except Fault α} (hx : x s = (r, s)) (h : Q [] r) : x.Meets s Q := by
  refine ⟨[], (congrArg Prod.snd hx).symm, ?_⟩
  rw [hx]
  exact h

/-- A request is sent once, and its answer is the result. -/
theorem send {Q : Exchange → Except Fault Unit → Prop} {q : Request}
    (h : ∀ reply, Q [(q, reply)] (granted reply)) : (Call.send q).Meets s Q := by
  refine ⟨[(q, s.answer q)], ?_, ?_⟩
  · refine ⟨rfl, ?_⟩
    -- The session moves on by one request, whatever the answer was.
    show s.sending q = (Call.send q s).2
    unfold Call.send
    simp only
    split <;> rfl
  · -- The answer decides only what the call gives.
    have hr : (Call.send q s).1 = granted (s.answer q) := by
      unfold Call.send
      simp only [Session.answer]
      split <;> simp [*, granted]
    rw [hr]
    exact h _

/-- A call goes on with the next from where it got to. -/
theorem bind_answers (hx : x.Meets s P)
    (hok : ∀ log a t, P log (.ok a) → s.Answers log t →
      (f a).Meets t fun more r => R (log ++ more) r)
    (herror : ∀ log e, P log (.error e) → R log (.error e)) : (x >>= f).Meets s R := by
  obtain ⟨log, hlog, hr⟩ := hx
  show (Call.andThen x f).Meets s R
  unfold Meets Call.andThen
  generalize x s = p at hlog hr
  obtain ⟨r, t⟩ := p
  cases r with
  | ok a =>
    obtain ⟨more, hmore, hR⟩ := hok log a t hr hlog
    exact ⟨log ++ more, hlog.append hmore, hR⟩
  -- A failure ends the exchange; the second call sends nothing.
  | error e => exact ⟨log, hlog, herror log e hr⟩

/-- Mostly it does not matter from where a call goes on. -/
theorem bind (hx : x.Meets s P)
    (hok : ∀ log a t, P log (.ok a) → t.facts = s.facts →
      (f a).Meets t fun more r => R (log ++ more) r)
    (herror : ∀ log e, P log (.error e) → R log (.error e)) : (x >>= f).Meets s R :=
  hx.bind_answers (fun log a t hr hlog => hok log a t hr hlog.facts) herror

/-- A call before one that only fails is done however it ends. -/
theorem bind_fail {f : Fault} (hx : x.Meets s P) (h : ∀ log r e, P log r → R log (.error e)) :
    (x >>= fun _ => (Call.fail f : Call β)).Meets s R := by
  refine hx.bind ?_ ?_
  · intro log a _ hP _
    exact Meets.fail ((List.append_nil log).symm ▸ h log _ f hP)
  · intro log e hP
    exact h log _ e hP

/-- What is known without a request is known from the start. -/
theorem ofExcept_bind {r : Except Fault α} (hok : ∀ a, r = .ok a → (f a).Meets s R)
    (herror : ∀ e, r = .error e → R [] (.error e)) : (Call.ofExcept r >>= f).Meets s R := by
  cases r with
  | ok a => exact hok a rfl
  | error e => exact ⟨[], rfl, herror e rfl⟩

/-- The facts are read without a request. -/
theorem facts_bind {f : Facts → Call β} (h : (f s.facts).Meets s R) :
    (Call.facts >>= f).Meets s R := h

/-- An attempt gives what its call fails with as a value. -/
theorem attempt {Q : Exchange → Except Fault (Except Fault α) → Prop}
    (hx : x.Meets s fun log r => Q log (.ok r)) : (Call.attempt x).Meets s Q :=
  hx

/-- It is enough that what a call meets holds of the named result. -/
theorem refusedAs (hx : x.Meets s fun log r => Q log (named failure r)) :
    (Call.refusedAs failure x).Meets s Q := by
  unfold Meets
  rw [refusedAs_eq]
  exact hx

/-- It is enough that what a call meets holds of the cleared result. -/
theorem tolerating {x : Call Unit} {Q : Exchange → Except Fault Unit → Prop}
    (hx : x.Meets s fun log r => Q log (passed passes r)) :
    (Call.tolerating passes x).Meets s Q := by
  unfold Meets
  rw [tolerating_eq]
  exact hx

end Meets

end Call
end Slipway.Engine
