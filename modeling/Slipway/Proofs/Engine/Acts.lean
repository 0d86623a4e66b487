import Slipway.Proofs.Engine.Attributes
import Slipway.Proofs.Engine.Creation

/-!
# `Slipway.Proofs.Engine.Acts`: acts on a container of an engine that answers

An engine that answers may refuse any request, but it always says so with a text. Once a session
refuses by answers only it goes on to do so (`Answers.onlyAnswers`), so the second of two calls may
count on it like the first (`bind_answered`).

Each act on a container looks the container up and sends one request about it. `Ends` says how such
a call ends: with the first request that is refused, or well if none is. What is put around the
requests only changes what a refusal comes to: it is a failure (`Ends.named`), it is passed over
(`Ends.passed`), or it stays what it is. What an act reads off afterwards is known beforehand, since
no request changes what the engine says of the container (`bind_ends`). -/

set_option autoImplicit false

namespace Slipway.Engine

open Call (granted named passed Meets)

/-! ### Engines that answer -/

/-- Whether a fault is a refusal with which an engine answers. -/
def IsAnswer (f : Fault) : Prop :=
  ∃ refusal text, f = .engine refusal text ∧ refusal.isAnswer = true

/-- Whether all that is refused in an exchange is refused by an answer. -/
def OnlyAnswers (log : Exchange) : Prop := ∀ x ∈ log, ∀ f, x.2 = some f → IsAnswer f

namespace Session

variable {s t : Session} {log : Exchange}

/-- Whether a session refuses requests by answers only. -/
def OnlyAnswers (s : Session) : Prop := ∀ turn ∈ s.turns, ∀ f, some f ∈ turn.2 → IsAnswer f

/-- In a session of answers whatever is refused is refused with an answer. -/
theorem OnlyAnswers.answer {q : Request} {f : Fault} (h : s.OnlyAnswers)
    (hf : s.answer q = some f) :
    IsAnswer f := by
  -- The answer is the first turn of the queue of that kind, and the queue is one of the session.
  obtain ⟨queue, hqueue, hhead⟩ : ∃ queue, s.turns.lookup q.operation = some queue ∧
      some f ∈ queue := by
    unfold Session.answer queue at hf
    cases hlookup : s.turns.lookup q.operation with
    | none => rw [hlookup] at hf; cases hf
    | some queue =>
      rw [hlookup] at hf
      exact ⟨queue, rfl, List.mem_of_head? (Option.join_eq_some_iff.mp hf)⟩
  obtain ⟨before, after, hturns, -⟩ := List.lookup_eq_some_iff.mp hqueue
  exact h (q.operation, queue) (by rw [hturns]; simp) f hhead

/-- It stays such a session after a request. -/
theorem OnlyAnswers.sending (h : s.OnlyAnswers) (q : Request) : (s.sending q).OnlyAnswers := by
  intro turn hturn f hf
  obtain ⟨old, hold, rfl⟩ := List.mem_map.mp hturn
  -- A queue loses its first turn, or none.
  split at hf
  · exact h old hold f (List.mem_of_mem_drop hf)
  · exact h old hold f hf

/-- Such a session answers so, and goes on to do so. -/
theorem Answers.onlyAnswers (hs : s.OnlyAnswers) (h : s.Answers log t) :
    Engine.OnlyAnswers log ∧ t.OnlyAnswers := by
  induction log generalizing s with
  | nil => exact ⟨fun x hx => absurd hx List.not_mem_nil, h ▸ hs⟩
  | cons x rest ih =>
    obtain ⟨hrest, ht⟩ := ih (hs.sending x.1) h.2
    exact ⟨List.forall_mem_cons.mpr ⟨fun f hf => hs.answer (h.1.trans hf), hrest⟩, ht⟩

end Session

namespace Call.Meets

variable {α β : Type} {s : Session} {x : Call α} {f : α → Call β}
  {P : Exchange → Except Fault α → Prop}
  {R : Exchange → Except Fault β → Prop}

/-- What a call comes to in such a session it comes to with answers only. -/
theorem answered (hs : s.OnlyAnswers) (hx : x.Meets s P) :
    x.Meets s fun log r => OnlyAnswers log ∧ P log r := by
  obtain ⟨log, hlog, hr⟩ := hx
  exact ⟨log, hlog, (hlog.onlyAnswers hs).1, hr⟩

/-- A call goes on with the next, which is refused by answers only too. -/
theorem bind_answered (hs : s.OnlyAnswers) (hx : x.Meets s P)
    (hok : ∀ log a t, P log (.ok a) → t.facts = s.facts → t.OnlyAnswers →
      (f a).Meets t fun more r => R (log ++ more) r)
    (herror : ∀ log e, P log (.error e) → R log (.error e)) : (x >>= f).Meets s R :=
  hx.bind_answers (fun log a t hr hlog => hok log a t hr hlog.facts (hlog.onlyAnswers hs).2) herror

end Call.Meets

section
variable {α β : Type} {s : Session}

/-! ### Requests in order -/

/-- How a call ends that sends requests in order, up to the first that is refused. What it gives if
none is, and what a refusal comes to, depends on the call. -/
inductive Ends (rs : List Request) (refused : EngineRefusal → String → Except Fault α)
    (done : Except Fault α) : Exchange → Except Fault α → Prop where
  | done : Ends rs refused done (allGranted rs) done
  | refused (before : List Request) (q : Request) (more : List Request) (refusal : EngineRefusal)
      (text : String) (hrs : rs = before ++ q :: more) (hanswer : refusal.isAnswer = true) :
      Ends rs refused done (allGranted before ++ [(q, some (.engine refusal text))])
        (refused refusal text)

/-- A refusal that is passed on as it is. -/
def passedOn (refusal : EngineRefusal) (text : String) : Except Fault α :=
  .error (.engine refusal text)

/-- A refusal that is a failure. -/
def failing (failure : String → Failure) (_ : EngineRefusal) (text : String) : Except Fault α :=
  .error (.failure (failure text))

/-- A refusal that is passed over if what was asked for is gone. -/
def unlessGone (refusal : EngineRefusal) (text : String) : Except Fault Unit :=
  if refusal.isNotFound then .ok () else .error (.engine refusal text)

variable {rs : List Request} {log : Exchange} {r : Except Fault Unit}

/-- Requests in order end with the first that is refused, or well. -/
theorem InOrder.ends (h : InOrder rs log r) (hlog : OnlyAnswers log) :
    Ends rs passedOn (.ok ()) log r := by
  rcases h with ⟨rfl, rfl⟩ | ⟨before, q, f, more, hrs, rfl, rfl⟩
  · exact .done
  · obtain ⟨refusal, text, rfl, hanswer⟩ := hlog (q, some f) (by simp) f rfl
    exact .refused before q more refusal text hrs hanswer

/-- So they do when what is refused is named as a failure. -/
theorem Ends.named {failure : String → Failure} (h : Ends rs passedOn (.ok ()) log r) :
    Ends rs (failing failure) (.ok ()) log (named failure r) := by
  cases h with
  | done => exact .done
  | refused before q more refusal text hrs hanswer =>
    have hnamed : Call.named failure (passedOn refusal text : Except Fault Unit) =
        failing failure refusal text := if_pos hanswer
    rw [hnamed]
    exact .refused before q more refusal text hrs hanswer

/-- So they do when a refusal that says that the container is gone is passed over. -/
theorem Ends.passed (h : Ends rs passedOn (.ok ()) log r) :
    Ends rs unlessGone (.ok ()) log (passed EngineRefusal.isNotFound r) := by
  cases h with
  | done => exact .done
  | refused before q more refusal text hrs hanswer =>
    exact .refused before q more refusal text hrs hanswer

/-- What follows the requests of a call, without further ones, is done if they are all granted. -/
theorem bind_ends {x : Call α} {f : α → Call β} {a : α} {b : Except Fault β}
    {refused : EngineRefusal → String → Except Fault α}
    {refused' : EngineRefusal → String → Except Fault β}
    (herror : ∀ refusal text, ∃ e, refused refusal text = .error e ∧
      refused' refusal text = .error e)
    (hx : x.Meets s (Ends rs refused (.ok a))) (hf : ∀ t, t.facts = s.facts → f a t = (b, t)) :
    (x >>= f).Meets s (Ends rs refused' b) := by
  refine hx.bind ?_ ?_
  · intro log a' t hends ht
    -- A refusal is an error, so the requests were all granted, and `a'` is what they give then.
    generalize hr : (Except.ok a' : Except Fault α) = r at hends
    cases hends with
    | done =>
      cases hr
      refine Meets.gives (hf t ht) ?_
      rw [List.append_nil]
      exact .done
    | refused _ _ _ refusal text _ _ =>
      obtain ⟨e, he, -⟩ := herror refusal text
      rw [he] at hr
      cases hr
  · intro log e hends
    generalize hr : (Except.error e : Except Fault α) = r at hends
    cases hends with
    | done => cases hr
    | refused before q more refusal text hrs hanswer =>
      -- What the refusal comes to first is what it comes to in the end.
      obtain ⟨e', he, he'⟩ := herror refusal text
      rw [he] at hr
      cases hr
      rw [← he']
      exact .refused before q more refusal text hrs hanswer

end

namespace Adapter

variable {s : Session}

/-- A single request is granted or refused by an answer. -/
theorem send_answered (hs : s.OnlyAnswers) (q : Request) :
    (Call.send q).Meets s fun log r =>
      ∃ reply, log = [(q, reply)] ∧ r = granted reply ∧ ∀ f, reply = some f → IsAnswer f := by
  have hsend : (Call.send q).Meets s fun log r => ∃ reply, log = [(q, reply)] ∧ r = granted reply :=
    Meets.send fun reply => ⟨reply, rfl, rfl⟩
  refine (hsend.answered hs).mono ?_
  rintro _ _ ⟨hlog, reply, rfl, rfl⟩
  exact ⟨reply, rfl, rfl, hlog _ (List.mem_singleton_self _)⟩

/-- A request to a container looks the container up first. -/
theorem sendTo_ends (hs : s.OnlyAnswers) (id : String) (q : Request) :
    (sendTo id q).Meets s (Ends [.findContainer id, q] passedOn (.ok ())) :=
  ((sendTo_meets id q).answered hs).mono fun _ _ ⟨hlog, h⟩ => h.ends hlog

/-! ### Acts on a container -/

/-- An act that fails in its own way if one of two requests is refused. -/
theorem sendTo_refusedAs_ends (hs : s.OnlyAnswers) (failure : String → Failure) (id : String)
    (q : Request) :
    (Call.refusedAs failure (sendTo id q)).Meets s
      (Ends [.findContainer id, q] (failing failure) (.ok ())) :=
  Meets.refusedAs ((sendTo_ends hs id q).mono fun _ _ h => h.named)

/-- The failure of an act that needs what is known of a container. -/
def lost (id text : String) : Failure := .startFailed id ("container no longer available: " ++ text)

/-- A failure of a call is the same, whatever the call would have given. -/
theorem failing_error {α β : Type} (failure : String → Failure) (refusal : EngineRefusal)
    (text : String) :
    ∃ e, (failing failure refusal text : Except Fault α) = .error e ∧
      (failing failure refusal text : Except Fault β) = .error e :=
  ⟨_, rfl, rfl⟩

/-- A container that cannot be looked up or reloaded is lost. -/
theorem reloaded_ends (hs : s.OnlyAnswers) (id : String) :
    (reloaded id).Meets s (Ends [.findContainer id, .reload] (failing (lost id)) (.ok s.facts)) :=
  bind_ends (failing_error _) (sendTo_refusedAs_ends hs _ id _) fun t ht => by rw [← ht]; rfl

/-- An act that reads off what is known of a container. -/
theorem reloaded_bind_ends {α : Type} (hs : s.OnlyAnswers) (id : String) {f : Facts → Call α}
    {r : Except Fault α} (hf : ∀ t, f s.facts t = (r, t)) :
    (reloaded id >>= f).Meets s (Ends [.findContainer id, .reload] (failing (lost id)) r) :=
  bind_ends (failing_error _) (reloaded_ends hs id) fun t _ => hf t

/-- The status is what the reloaded attributes say. -/
theorem status_ends (hs : s.OnlyAnswers) (id : String) :
    (status id).Meets s
      (Ends [.findContainer id, .reload] (failing (lost id)) (.ok s.facts.status)) :=
  reloaded_bind_ends hs id fun _ => rfl

/-- The health is what the reloaded attributes say. -/
theorem health_ends (hs : s.OnlyAnswers) (id : String) :
    (health id).Meets s
      (Ends [.findContainer id, .reload] (failing (lost id))
        (Attributes.health s.facts.attributes)) :=
  reloaded_bind_ends hs id fun _ => rfl

/-- What is known of a started container, from well-formed facts: all but the host, which the
address gives. -/
theorem inspect_ends (a : Adapter) (hs : s.OnlyAnswers) (hfacts : s.facts.IsWellFormed)
    (id : String) :
    ∃ ports startedAt, (a.inspect id).Meets s
      (Ends [.findContainer id, .reload] (failing (lost id))
        (a.address.host.map fun host => ⟨s.facts.id, host, ports, startedAt⟩)) := by
  obtain ⟨ports, hports⟩ := Attributes.ports_total hfacts.attributes
  obtain ⟨started, startedAt, hstarted, hparsed⟩ := Attributes.startedAt_total hfacts.attributes
  refine ⟨ports, startedAt, reloaded_bind_ends hs id fun t => ?_⟩
  rw [hports, hstarted]
  -- The attributes are readable, so only the address of the host may be missing.
  cases hhost : a.address.host with
  | error e => rfl
  | ok host =>
    simp only [bind, Call.andThen, Call.ofExcept, hparsed]
    rfl

/-- The failure of following a stream. -/
def unfollowed (id name text : String) : Failure :=
  .startFailed id ("cannot follow " ++ name ++ ": " ++ text)

/-- A log is followed from its start time on, or the failure names the stream. -/
theorem logs_ends (hs : s.OnlyAnswers) (id name : String) (since : Option Calendar.Timestamp) :
    (logs id name since).Meets s
      (Ends [.findContainer id, .followLogs (names name .stdout) (names name .stderr) since]
        (failing (unfollowed id name)) (.ok s.facts.logs)) :=
  bind_ends (failing_error _) (sendTo_refusedAs_ends hs _ id _) fun t ht => by rw [← ht]; rfl

/-- A snapshot passes on what the engine refuses with. -/
theorem snapshot_ends (hs : s.OnlyAnswers) (id name : String) :
    (snapshot id name).Meets s
      (Ends [.findContainer id, .readLogs (names name .stdout) (names name .stderr)] passedOn
        (.ok s.facts.logs)) :=
  bind_ends (fun _ _ => ⟨_, rfl, rfl⟩) (sendTo_ends hs id _) fun t ht => by rw [← ht]; rfl

/-- The failure of a command that was not run. -/
def unrun (argv : List String) (text : String) : Failure := .execFailed argv none [] [] (some text)

/-- A command gives the exit code and the outputs, or the failure names the command. -/
theorem exec_ends (hs : s.OnlyAnswers) (hfacts : s.facts.IsWellFormed) (id : String)
    (argv : List String)
    (user workdir : Option String) :
    ∃ out err, (exec id argv user workdir).Meets s
      (Ends [.findContainer id, .exec argv (user.getD "") workdir] (failing (unrun argv))
        (.ok ⟨s.facts.exitCode, out, err⟩)) := by
  -- Output that is well-formed is none or that of two streams, and both can be read.
  obtain ⟨output, houtput⟩ : ∃ output, streams s.facts.output = .ok output := by
    rcases hfacts.output with h | ⟨out, err, h⟩
    · exact ⟨_, by rw [h]; rfl⟩
    · exact ⟨_, by rw [h]; rfl⟩
  refine ⟨output.1, output.2, bind_ends (failing_error _) (sendTo_refusedAs_ends hs _ id _) ?_⟩
  intro t ht
  simp only [bind, Call.andThen, Call.facts, Call.ofExcept, ht, houtput]
  rfl

/-- A copy is handed over as one archive, or the failure names the path. -/
theorem copy_ends (a : Adapter) (hs : s.OnlyAnswers) (id : String) (content : Text.Utf8.Bytes)
    (path : String) (mode : Int) :
    (a.copy id content path mode).Meets s
      (Ends [.findContainer id,
        .putArchive (a.parcel content path mode).1 (a.parcel content path mode).2]
        (failing (copyFailed path)) (.ok ())) :=
  sendTo_refusedAs_ends hs _ id _

/-- An act that does not matter once the container is gone. -/
theorem sendTo_tolerating_ends (hs : s.OnlyAnswers) (id : String) (q : Request) :
    (Call.tolerating EngineRefusal.isNotFound (sendTo id q)).Meets s
      (Ends [.findContainer id, q] unlessGone (.ok ())) :=
  Meets.tolerating ((sendTo_ends hs id q).mono fun _ _ h => h.passed)

end Adapter

end Slipway.Engine
