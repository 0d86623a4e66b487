import Slipway.Proofs.Engine.Acts

/-!
# `Slipway.Proofs.Engine.Refusals`: what becomes of a refusal

`Translates` says of each act of a lifecycle what it makes of a refusal with which the engine
answers. It is a failure of the act, which names the image, the container or the command, wherever
the refusal came. Stopping and removing pass over a container that is gone and pass on any other
refusal. Reading a log at once passes on all.

A creation looks up the image first, and pulls it if it is missing and may be pulled. Of all its
refusals only this one is forgiven (`MayPull`), and that makes the two halves of what is said of it:
the creation fails just when something was refused that is not forgiven, and an image is pulled just
when something is (`Creates`). Both are kept when further requests follow that are not about images
(`Creates.append`).

Before all that, the times of a healthcheck are counted in nanoseconds. A creation whose times
cannot be counted ends with the defect of a number, which is no failure of a creation, and the
engine has not heard of it then. -/

set_option autoImplicit false

namespace Slipway.Engine

open Call (granted Meets)

namespace Adapter

variable {s : Session}

/-! ### Times of a healthcheck -/

/-- Whether a number of seconds can be counted in nanoseconds: as floating-point numbers, they are
finite. -/
def IsCountable (seconds : Binary64) : Prop :=
  ∃ negative mantissa exponent,
    seconds.mul (Binary64.ofNat 1000000000) = .finite negative mantissa exponent

/-- A number that cannot be counted. -/
def IsUncounted (e : Fault) : Prop := e = .defect .infiniteInteger ∨ e = .defect .nanInteger

/-- Seconds are turned into nanoseconds exactly when they can be counted. -/
theorem nanoseconds_spec (seconds : Binary64) :
    (IsCountable seconds ∧ ∃ n, nanoseconds seconds = .ok n) ∨
      (¬ IsCountable seconds ∧ ∃ e, nanoseconds seconds = .error e ∧ IsUncounted e) := by
  unfold IsCountable nanoseconds
  cases seconds.mul (Binary64.ofNat 1000000000) with
  | finite negative mantissa exponent => exact .inl ⟨⟨_, _, _, rfl⟩, _, rfl⟩
  | infinite negative => exact .inr ⟨fun ⟨_, _, _, h⟩ => (by cases h), _, rfl, .inl rfl⟩
  | nan => exact .inr ⟨fun ⟨_, _, _, h⟩ => (by cases h), _, rfl, .inr rfl⟩

/-- Whether the times of a healthcheck can be counted. -/
def AreCountable (h : Healthcheck) : Prop :=
  IsCountable h.interval ∧ IsCountable h.timeout ∧ IsCountable h.startPeriod

/-- A healthcheck is handed to the engine exactly when all of its times can be counted. -/
theorem ofHealthcheck_spec (h : Healthcheck) :
    (AreCountable h ∧ ∃ checkup, Checkup.ofHealthcheck h = .ok checkup) ∨
      (¬ AreCountable h ∧ ∃ e, Checkup.ofHealthcheck h = .error e ∧ IsUncounted e) := by
  simp only [Checkup.ofHealthcheck, bind, Except.bind]
  -- The times are counted one after the other, up to the first that cannot be.
  rcases nanoseconds_spec h.interval with ⟨hinterval, n, hn⟩ | ⟨hinterval, e, he, hkind⟩
  · rcases nanoseconds_spec h.timeout with ⟨htimeout, m, hm⟩ | ⟨htimeout, e, he, hkind⟩
    · rcases nanoseconds_spec h.startPeriod with ⟨hperiod, k, hk⟩ | ⟨hperiod, e, he, hkind⟩
      · exact .inl ⟨⟨hinterval, htimeout, hperiod⟩, _, by rw [hn, hm, hk]; rfl⟩
      · exact .inr ⟨fun h => hperiod h.2.2, e, by rw [hn, hm, he], hkind⟩
    · exact .inr ⟨fun h => htimeout h.2.1, e, by rw [hn, he], hkind⟩
  · exact .inr ⟨fun h => hinterval h.1, e, by rw [he], hkind⟩

/-- Whether the times of the healthcheck of a spec can be counted, if it has one. -/
def HasCountableTimes (spec : Spec) : Prop := ∀ h, spec.healthcheck = some h → AreCountable h

/-- So is that of a spec. A spec without a healthcheck has nothing to count. -/
theorem healthcheck_spec (spec : Spec) :
    (HasCountableTimes spec ∧
      ∃ checkup, spec.healthcheck.mapM Checkup.ofHealthcheck = .ok checkup) ∨
      (¬ HasCountableTimes spec ∧
        ∃ e, spec.healthcheck.mapM Checkup.ofHealthcheck = .error e ∧ IsUncounted e) := by
  unfold HasCountableTimes
  cases spec.healthcheck with
  -- Without a healthcheck there is no time to count.
  | none => exact .inl ⟨fun h hh => (by cases hh), none, rfl⟩
  | some h =>
    rcases ofHealthcheck_spec h with ⟨hcounted, checkup, hcheckup⟩ | ⟨hcounted, e, he, hkind⟩
    · refine .inl ⟨fun h' hh => (by cases hh; exact hcounted), some checkup, ?_⟩
      show Checkup.ofHealthcheck h >>= _ = _
      rw [hcheckup]
      rfl
    · refine .inr ⟨fun hall => hcounted (hall h rfl), e, ?_, hkind⟩
      show Checkup.ofHealthcheck h >>= _ = _
      rw [he]
      rfl

/-! ### Creation -/

variable (a : Adapter) (spec : Spec)

/-- Whether a request with its answer is the one refusal of a creation that is forgiven: the image
is missing, and it may be pulled. -/
def MayPull (x : Request × Option Fault) : Prop :=
  a.address.settings.pullMissingImages = true ∧
    ∃ text, x = (.findImage spec.imageRef, some (.engine .imageNotFound text))

/-- Whether anything was refused that is not forgiven. -/
def Refused (log : Exchange) : Prop := ∃ x ∈ log, x.2 ≠ none ∧ ¬ MayPull a spec x

/-- Whether the image was pulled just when it was found to be missing and could be pulled, and no
other image was. -/
def PullsMissing (log : Exchange) : Prop :=
  ∀ image tag, (∃ reply, (Request.pullImage image tag, reply) ∈ log) ↔
    (image = spec.image ∧ tag = spec.tag) ∧ ∃ x ∈ log, MayPull a spec x

/-- Whether a request is not about images. -/
def AvoidsImages (q : Request) : Prop := q.operation ≠ .findImage ∧ q.operation ≠ .pullImage

/-- What a creation whose engine answers comes to, or the first part of it: it gives a value if
nothing was refused but the lookup of an image that is pulled then, and fails in some way else. -/
structure Creates {α : Type} (fails : Fault → Prop) (value : α) (log : Exchange)
    (r : Except Fault α) :
    Prop where
  result : r = .ok value ∧ ¬ Refused a spec log ∨ (∃ e, r = .error e ∧ fails e) ∧ Refused a spec log
  pulls : PullsMissing a spec log

section
variable {a spec} {log more : Exchange} {q : Request} {f : Fault} {reply : Option Fault}

/-- A request was refused in two exchanges if it was in one of them. -/
theorem refused_append_iff :
    Refused a spec (log ++ more) ↔ Refused a spec log ∨ Refused a spec more := by
  simp [Refused, or_and_right, exists_or]

/-- Nothing was refused where everything was granted. -/
theorem not_refused_allGranted (rs : List Request) : ¬ Refused a spec (allGranted rs) := by
  rintro ⟨x, hx, hrefused, -⟩
  obtain ⟨q, -, rfl⟩ := List.mem_map.mp hx
  exact hrefused rfl

/-- A missing image that will be pulled is no refusal of the creation. -/
theorem not_refused_of_mayPull {x : Request × Option Fault} (h : MayPull a spec x) :
    ¬ Refused a spec [x] := by
  rintro ⟨y, hy, -, hnot⟩
  rw [List.mem_singleton.mp hy] at hnot
  exact hnot h

/-- A refusal of a request that is not a lookup is not forgiven. -/
theorem refused_single (hq : q.operation ≠ .findImage) :
    Refused a spec [(q, some f)] := by
  refine ⟨_, List.mem_singleton_self _, nofun, ?_⟩
  rintro ⟨-, text, hx⟩
  cases hx
  exact hq rfl

/-- A request that is not a lookup is granted, or it is refused and that is not forgiven. -/
theorem granted_or_refused (hq : q.operation ≠ .findImage)
    (hreply : ∀ f, reply = some f → IsAnswer f) :
    granted reply = .ok () ∧ ¬ Refused a spec [(q, reply)] ∨
      (∃ e, granted reply = .error e ∧ IsAnswer e) ∧ Refused a spec [(q, reply)] := by
  cases reply with
  | none => exact .inl ⟨rfl, not_refused_allGranted [q]⟩
  | some f => exact .inr ⟨⟨f, rfl, hreply f rfl⟩, refused_single hq⟩

/-- Requests that are not about images change nothing of what was pulled. -/
theorem PullsMissing.append (h : PullsMissing a spec log)
    (hmore : ∀ x ∈ more, AvoidsImages x.1) :
    PullsMissing a spec (log ++ more) := by
  intro image tag
  have hpull : ∀ reply,
      (Request.pullImage image tag, reply) ∉ more := fun reply hx => (hmore _ hx).2 rfl
  have hfind : ∀ x ∈ more, ¬ MayPull a spec x := by
    rintro x hx ⟨-, text, rfl⟩
    exact (hmore _ hx).1 rfl
  -- The added requests neither look for images nor pull them, so both sides stay as they were.
  have hsame : (∃ x ∈ log ++ more, MayPull a spec x) ↔ ∃ x ∈ log, MayPull a spec x := by
    constructor
    · rintro ⟨x, hx, hpulls⟩
      exact ⟨x, (List.mem_append.mp hx).resolve_right fun hx => hfind x hx hpulls, hpulls⟩
    · rintro ⟨x, hx, hpulls⟩
      exact ⟨x, List.mem_append_left _ hx, hpulls⟩
  rw [hsame, ← h image tag]
  simp [hpull]

/-- More requests of a creation, which are not about images. -/
theorem Creates.append {α β : Type} {fails fails' : Fault → Prop} {x : α} {y : β}
    {r : Except Fault β}
    (h : Creates a spec fails x log (.ok x))
    (hmore : ∀ x ∈ more, AvoidsImages x.1)
    (hr : r = .ok y ∧ ¬ Refused a spec more ∨ (∃ e, r = .error e ∧ fails' e) ∧
      Refused a spec more) :
    Creates a spec fails' y (log ++ more) r := by
  have hlog : ¬ Refused a spec log := by
    rcases h.result with ⟨-, hlog⟩ | ⟨⟨e, he, -⟩, -⟩
    · exact hlog
    · cases he
  refine ⟨?_, h.pulls.append hmore⟩
  rw [refused_append_iff, or_iff_right hlog]
  exact hr

/-! ### Images -/

/-- Without a pull, the lookup of an image is the whole story. -/
theorem creates_lookup (hpull : ¬ MayPull a spec (.findImage spec.imageRef, reply))
    (hreply : ∀ f, reply = some f → IsAnswer f) :
    Creates a spec IsAnswer () [(.findImage spec.imageRef, reply)] (granted reply) := by
  refine ⟨?_, fun image tag => ?_⟩
  · cases reply with
    | none => exact .inl ⟨rfl, not_refused_allGranted [_]⟩
    | some f => exact .inr ⟨⟨f, rfl, hreply f rfl⟩, _, List.mem_singleton_self _, nofun, hpull⟩
  · -- Nothing is pulled: the only request is the lookup, and its answer does not allow a pull.
    refine iff_of_false ?_ ?_
    · rintro ⟨reply', hx⟩
      cases List.mem_singleton.mp hx
    · rintro ⟨-, x, hx, hpull'⟩
      rw [List.mem_singleton.mp hx] at hpull'
      exact hpull hpull'

/-- An image that is missing is pulled if it may be. -/
theorem creates_pull {text : String} (hpulls : a.address.settings.pullMissingImages = true)
    (hreply : ∀ f, reply = some f → IsAnswer f) :
    Creates a spec IsAnswer ()
      [(.findImage spec.imageRef, some (.engine .imageNotFound text)),
        (.pullImage spec.image spec.tag, reply)] (granted reply) := by
  have hmay : MayPull a spec (.findImage spec.imageRef, some (.engine .imageNotFound text)) :=
    ⟨hpulls, text, rfl⟩
  refine ⟨?_, fun image tag => ?_⟩
  · -- The lookup is forgiven, so it is the pull that counts.
    rw [← List.singleton_append, refused_append_iff, or_iff_right (not_refused_of_mayPull hmay)]
    exact granted_or_refused nofun hreply
  · constructor
    · rintro ⟨reply', hx⟩
      simp only [List.mem_cons, List.not_mem_nil, or_false] at hx
      rcases hx with hx | hx
      · cases hx
      · cases hx
        exact ⟨⟨rfl, rfl⟩, _, List.mem_cons_self, hmay⟩
    · rintro ⟨⟨rfl, rfl⟩, -⟩
      exact ⟨reply, List.mem_cons_of_mem _ (List.mem_singleton_self _)⟩

end

/-- An image is there, or it is missing and pulled. Else the refusal that came is passed on. -/
theorem ensureImage_creates (hs : s.OnlyAnswers) :
    (a.ensureImage spec).Meets s (Creates a spec IsAnswer ()) := by
  have hfind : (Call.attempt (Call.send (.findImage spec.imageRef))).Meets s fun log r =>
      ∃ reply, log = [(.findImage spec.imageRef, reply)] ∧ r = .ok (granted reply) ∧
        ∀ f, reply = some f → IsAnswer f := by
    refine Meets.attempt ((send_answered hs _).mono ?_)
    rintro _ _ ⟨reply, rfl, rfl, hreply⟩
    exact ⟨reply, rfl, rfl, hreply⟩
  refine Meets.bind_answered hs hfind ?_ ?_
  · rintro _ found t ⟨reply, rfl, hfound, hreply⟩ - ht
    cases hfound
    split
    · rename_i text hmissing
      obtain rfl : reply = some (.engine .imageNotFound text) := by
        cases reply with
        | none => cases hmissing
        | some f => cases hmissing; rfl
      -- The image is missing, and it is pulled or that is the end of it.
      split
      · rename_i hpulls
        refine (send_answered ht _).mono ?_
        rintro _ _ ⟨reply', rfl, rfl, hreply'⟩
        exact creates_pull hpulls hreply'
      · rename_i hpulls
        exact Meets.fail (creates_lookup (fun h => hpulls h.1) hreply)
    · -- The lookup was granted, or it was refused for another reason.
      rename_i hother
      refine Meets.ofExcept (creates_lookup ?_ hreply)
      rintro ⟨-, text, hx⟩
      cases hx
      exact hother text rfl
  · rintro _ e ⟨reply, -, he, -⟩
    cases he

/-! ### Creation as a whole -/

/-- Whether a fault is the failure to create a container from an image. -/
def IsCreateFailed (imageRef : String) (e : Fault) : Prop :=
  ∃ reason, e = .failure (.createFailed imageRef reason)

/-- The requests by which a container is made, with their refusals as failures. -/
theorem making_creates (hs : s.OnlyAnswers) (c : Creation) :
    (Call.refusedAs (.createFailed spec.imageRef) do
      a.ensureImage spec
      Call.send (.createContainer c)).Meets s
        (Creates a spec (IsCreateFailed spec.imageRef) ()) := by
  -- First what the two requests answer themselves; the failure that names the image wraps both.
  have hmade : (do
      a.ensureImage spec
      Call.send (.createContainer c)).Meets s (Creates a spec IsAnswer ()) := by
    refine Meets.bind_answered hs (ensureImage_creates a spec hs) ?_ (fun _ _ h => h)
    intro images _ t himages _ ht
    refine (send_answered ht _).mono ?_
    rintro _ _ ⟨reply, rfl, rfl, hreply⟩
    refine himages.append (fun x hx => ?_) ?_
    · rw [List.mem_singleton.mp hx]
      exact ⟨nofun, nofun⟩
    · exact granted_or_refused nofun hreply
  refine Meets.refusedAs (hmade.mono ?_)
  -- Either both were granted, or the answer that stopped them is named after the image.
  rintro log _ ⟨⟨rfl, hlog⟩ | ⟨⟨_, rfl, refusal, text, rfl, hanswer⟩, hlog⟩, hpulls⟩
  · exact ⟨.inl ⟨rfl, hlog⟩, hpulls⟩
  · exact ⟨.inr ⟨⟨_, if_pos hanswer, text, rfl⟩, hlog⟩, hpulls⟩

/-- Copies are all granted, or one of them fails. -/
theorem Copied.of_onlyAnswers {rs : List Request} {log : Exchange} {r : Except Fault Unit}
    (h : Copied rs log r) (hlog : OnlyAnswers log) (hrs : ∀ q ∈ rs, AvoidsImages q) :
    r = .ok () ∧ ¬ Refused a spec log ∨
      (∃ command code out err reason,
        r = .error (.failure (.execFailed command code out err reason))) ∧
        Refused a spec log := by
  cases h with
  | all => exact .inl ⟨rfl, not_refused_allGranted rs⟩
  | failed before q more f hsplit hf command code out err reason =>
    have hq := hrs q (by rw [hsplit]; simp)
    refine .inr ⟨⟨command, code, out, err, reason, rfl⟩, ?_⟩
    exact refused_append_iff.mpr (.inr (refused_single hq.1))
  -- A copy is cut off by something that is no answer, and this session has only answers.
  | cutOff before q more f hsplit hf =>
    obtain ⟨refusal, text, rfl, hanswer⟩ := hlog (q, some f) (by simp) f rfl
    exact absurd hanswer (Bool.eq_false_iff.mp hf)

/-- The requests of copies are not about images. -/
theorem avoidsImages_of_mem_deliveries {id : String} {ps : List Payload} {q : Request}
    (h : q ∈ ps.flatMap (a.delivery id)) : AvoidsImages q := by
  unfold AvoidsImages
  rcases a.operation_of_mem_deliveries id h with h | h <;> rw [h] <;> exact ⟨nofun, nofun⟩

/-- A container is removed again before a creation fails, however the engine answers to that. -/
theorem rollback_answered {α : Type} (hs : s.OnlyAnswers) (e : Fault) :
    (Call.tolerating EngineRefusal.isAnswer (Call.send .remove) >>= fun _ =>
      (Call.fail e : Call α)).Meets s
      fun log r => (∃ reply, log = [(.remove, reply)]) ∧ r = .error e := by
  have hremoval : (Call.tolerating EngineRefusal.isAnswer (Call.send .remove)).Meets s fun log r =>
      (∃ reply, log = [(.remove, reply)]) ∧ r = .ok () := by
    refine Meets.tolerating ((send_answered hs _).mono ?_)
    rintro _ _ ⟨reply, rfl, rfl, hreply⟩
    refine ⟨⟨reply, rfl⟩, ?_⟩
    -- The removal may be refused with an answer, which the rollback passes over.
    cases reply with
    | none => rfl
    | some f =>
      obtain ⟨refusal, text, rfl, hanswer⟩ := hreply f rfl
      exact if_pos hanswer
  refine hremoval.bind ?_ ?_
  · rintro _ _ _ ⟨⟨reply, rfl⟩, -⟩ -
    exact Meets.fail ⟨⟨reply, rfl⟩, rfl⟩
  · rintro _ _ ⟨-, he⟩
    cases he

/-- A creation whose times can be counted gives the id of the container, or fails for its image. -/
theorem create_creates (hs : s.OnlyAnswers) (hcountable : HasCountableTimes spec) :
    (a.create spec).Meets s (Creates a spec (IsCreateFailed spec.imageRef) s.facts.id) := by
  obtain ⟨-, checkup, hcheckup⟩ | ⟨huncountable, -⟩ := healthcheck_spec spec
  · refine Meets.ofExcept_bind (fun checkup _ => ?_) (fun e he => by rw [hcheckup] at he; cases he)
    refine Meets.bind_answered hs (making_creates a spec hs _) ?_ ?_
    · intro making _ t hmaking hfacts ht
      rw [← hfacts]
      have hcopyAll := (a.attempt_copyAll_meets t.facts.id spec.copyTo).answered ht
      refine Meets.facts_bind (hcopyAll.bind_answered ht ?_ ?_)
      · rintro copies _ u ⟨hcopies, result, hresult, hcopied⟩ - hu
        cases hresult
        have hrs : ∀ q ∈ spec.copyTo.flatMap (a.delivery t.facts.id), AvoidsImages q :=
          fun q hq => avoidsImages_of_mem_deliveries a hq
        -- From here on nothing is about images, so only the refusals count.
        have himages : ∀ x ∈ copies, AvoidsImages x.1 := fun x hx => hrs _ (hcopied.mem hx)
        rcases hcopied.of_onlyAnswers a spec hcopies hrs with
          ⟨rfl, hgranted⟩ | ⟨⟨command, code, out, err, reason, rfl⟩, hrefused⟩
        · refine Meets.give ?_
          rw [List.append_nil]
          exact hmaking.append himages (.inl ⟨rfl, hgranted⟩)
        · refine (rollback_answered hu _).mono ?_
          rintro _ _ ⟨⟨reply, rfl⟩, rfl⟩
          refine hmaking.append ?_ (.inr ⟨⟨_, rfl, _, rfl⟩, refused_append_iff.mpr (.inl hrefused)⟩)
          exact List.forall_mem_append.mpr ⟨himages, List.forall_mem_singleton.mpr ⟨nofun, nofun⟩⟩
      · rintro _ e ⟨-, _, hresult, -⟩
        cases hresult
    · rintro log e ⟨⟨he, -⟩ | ⟨⟨e', he, hfails⟩, hlog⟩, hpulls⟩
      · cases he
      · cases he
        exact ⟨.inr ⟨⟨e, rfl, hfails⟩, hlog⟩, hpulls⟩
  · exact absurd hcountable huncountable

/-- A creation whose times cannot be counted fails before anything is sent. -/
theorem create_uncountable (hcountable : ¬ HasCountableTimes spec) :
    (a.create spec).Meets s fun log r => log = [] ∧ ∃ e, r = .error e ∧ IsUncounted e := by
  obtain ⟨h, -⟩ | ⟨-, e, he, hkind⟩ := healthcheck_spec spec
  · exact absurd h hcountable
  · refine Meets.ofExcept_bind (fun checkup hcheckup => ?_) (fun e' he' => ⟨rfl, e', rfl, ?_⟩)
    · rw [he] at hcheckup
      cases hcheckup
    · rw [he] at he'
      cases he'
      exact hkind

/-! ### All acts -/

/-- What becomes of a refusal in each act of a lifecycle. -/
structure Translates (s : Session) : Prop where
  create : ∀ spec, HasCountableTimes spec →
    (a.create spec).Meets s (Creates a spec (IsCreateFailed spec.imageRef) s.facts.id)
  uncountable : ∀ spec, ¬ HasCountableTimes spec →
    (a.create spec).Meets s fun log r => log = [] ∧ ∃ e, r = .error e ∧ IsUncounted e
  start : ∀ id,
    (start id).Meets s (Ends [.findContainer id, .start] (failing (.startFailed id)) (.ok ()))
  status : ∀ id, (status id).Meets s
    (Ends [.findContainer id, .reload] (failing (lost id)) (.ok s.facts.status))
  /-- An address that is no URL has no host. That is a defect, which is no failure of the start. -/
  inspect : ∀ id, ∃ ports startedAt, (a.inspect id).Meets s
    (Ends [.findContainer id, .reload] (failing (lost id))
      (a.address.host.map fun host => ⟨s.facts.id, host, ports, startedAt⟩))
  health : ∀ id, ∃ status, (health id).Meets s
    (Ends [.findContainer id, .reload] (failing (lost id)) (.ok status))
  logs : ∀ id name since, (logs id name since).Meets s
    (Ends [.findContainer id, .followLogs (names name .stdout) (names name .stderr) since]
      (failing (unfollowed id name)) (.ok s.facts.logs))
  snapshot : ∀ id name, (snapshot id name).Meets s
    (Ends [.findContainer id, .readLogs (names name .stdout) (names name .stderr)] passedOn
      (.ok s.facts.logs))
  exec : ∀ id argv user workdir, ∃ out err, (exec id argv user workdir).Meets s
    (Ends [.findContainer id, .exec argv (user.getD "") workdir] (failing (unrun argv))
      (.ok ⟨s.facts.exitCode, out, err⟩))
  copy : ∀ id content path mode, (a.copy id content path mode).Meets s
    (Ends
      [.findContainer id, .putArchive (a.parcel content path mode).1 (a.parcel content path mode).2]
      (failing (copyFailed path)) (.ok ()))
  stop : ∀ id, (stop id).Meets s (Ends [.findContainer id, .stop] unlessGone (.ok ()))
  remove : ∀ id, (remove id).Meets s (Ends [.findContainer id, .remove] unlessGone (.ok ()))

/-- An engine refuses by answers only, and what it says of its container is well-formed. Whatever it
has been asked already, each act makes of a refusal the failure that is its own. -/
theorem translates_answers (s t : Session) (log : Exchange) (hs : s.OnlyAnswers)
    (hfacts : s.facts.IsWellFormed) (hlog : s.Answers log t) : a.Translates t := by
  have ht : t.OnlyAnswers := (hlog.onlyAnswers hs).2
  -- The exchange so far changes nothing of what the engine knows of the container.
  have htfacts : t.facts.IsWellFormed := by
    rw [hlog.facts]
    exact hfacts
  obtain ⟨health, hhealth⟩ := Attributes.health_total htfacts.attributes
  exact {
    create := fun spec => create_creates a spec ht
    uncountable := fun spec => create_uncountable a spec
    start := fun id => sendTo_refusedAs_ends ht _ id _
    status := status_ends ht
    inspect := inspect_ends a ht htfacts
    health := fun id => ⟨health, hhealth ▸ health_ends ht id⟩
    logs := logs_ends ht
    snapshot := snapshot_ends ht
    exec := exec_ends ht htfacts
    copy := copy_ends a ht
    stop := fun id => sendTo_tolerating_ends ht id _
    remove := fun id => sendTo_tolerating_ends ht id _ }

/-- An engine that does not have the image at first, and lets nothing be written into its
containers. -/
def unwritable : Session where
  facts :=
    { id := "c1"
      status := "running"
      attributes := .object
        [("NetworkSettings", .object [("Ports", .object
          [("80/tcp", .list [.object [("HostIp", .text "0.0.0.0"), ("HostPort", .text "32768")]]),
            ("81/tcp", .null)])]),
          ("State", .object [("StartedAt", .text "2024-01-01T00:00:00.123456789Z"),
            ("Health", .object [("Status", .text "healthy")])])]
      logs := []
      output := []
      exitCode := some 0 }
  turns :=
    [(.findImage, [some (.engine .imageNotFound "no such image")]),
      (.putArchive, [some (.engine .rejected "read-only file system")]),
      (.stop, [some (.engine .notFound "no such container")])]
  sent := []

/-- The facts of the engine whose containers cannot be written to are well-formed. -/
theorem unwritable_isWellFormed : unwritable.facts.IsWellFormed where
  output := .inl rfl
  attributes :=
    { network := by
        refine ⟨_, _, rfl, rfl, ?_⟩
        -- One published port with a binding, and one that is exposed only.
        refine List.forall_mem_cons.mpr ⟨?_, List.forall_mem_singleton.mpr trivial⟩
        refine List.forall_mem_singleton.mpr
          ⟨fun ip hip => ⟨"0.0.0.0", ?_⟩, "32768", 32768, rfl, rfl⟩
        cases hip
        rfl
      state := by
        refine ⟨_, rfl, fun j hj => .inr ⟨"2024-01-01T00:00:00.123456789Z", _, ?_, rfl⟩,
          fun j hj => .inr ⟨"healthy", ?_⟩⟩
        · cases hj
          rfl
        · cases hj
          rfl }

/-- The image is looked up in vain, and each act can still fail in its own way only. -/
theorem translates_answers_of_unwritable :
    unwritable.OnlyAnswers ∧ unwritable.facts.IsWellFormed ∧
      unwritable.Answers
        [(.findImage "redis:latest", some (.engine .imageNotFound "no such image"))]
        (unwritable.sending (.findImage "redis:latest")) ∧
      Translates ⟨⟨Settings.usual, ""⟩, 0⟩ (unwritable.sending (.findImage "redis:latest")) := by
  have honly : unwritable.OnlyAnswers := by
    intro turn hturn f hf
    simp only [unwritable, List.mem_cons, List.not_mem_nil, or_false] at hturn
    -- Each of its refusals is an answer, with a text of the engine.
    rcases hturn with rfl | rfl | rfl <;> cases List.mem_singleton.mp hf <;> exact ⟨_, _, rfl, rfl⟩
  have hanswers : unwritable.Answers
      [(.findImage "redis:latest", some (.engine .imageNotFound "no such image"))]
      (unwritable.sending (.findImage "redis:latest")) := ⟨rfl, rfl⟩
  exact ⟨honly, unwritable_isWellFormed, hanswers,
    translates_answers _ _ _ _ honly unwritable_isWellFormed hanswers⟩

/-- A healthcheck that is never due cannot be counted in nanoseconds, and a creation fails with that
number before the engine has heard of it. -/
example :
    let a : Adapter := ⟨⟨Settings.usual, ""⟩, 0⟩
    let spec : Spec := { Spec.ofImage "redis" "latest" with
      healthcheck := some ⟨["a"], .infinite false, .ofNat 5, 3, .ofNat 0⟩ }
    let s : Session := ⟨⟨"c", "created", .null, [], [], none⟩, [], []⟩
    a.create spec s = (.error (.defect .infiniteInteger), s) := rfl

end Adapter

end Slipway.Engine
