import Slipway.Engine.Adapter
import Slipway.Proofs.Engine.Session

/-!
# `Slipway.Proofs.Engine.Creation`: what a failed creation leaves behind

Nobody but the creation itself knows of a container that was made and into which not all files could
be copied. So it has to remove that container before it fails. `create_removes_iff_answered` says
when it does: the copies end with the first request that is refused, and the container is removed if
that refusal is an answer of the engine. If the engine did not answer, the refusal is passed on as
it is and the container stays.

If an id is given, the files of the spec were handed over, each once and in order, and nothing was
removed.

The copies send a list of requests that is known in advance, as far as they are granted. `InOrder`
says this of one request, of two that belong together, and of all. -/

set_option autoImplicit false

namespace Slipway.Engine

open Call (granted named named_eq_ok Meets)

/-! ### Requests that are sent as long as they are granted -/

/-- The exchange in which some requests are granted. -/
def allGranted (rs : List Request) : Exchange := rs.map fun r => (r, none)

/-- Requests that are granted one after the other are granted together. -/
theorem allGranted_append (rs rs' : List Request) :
    allGranted (rs ++ rs') = allGranted rs ++ allGranted rs' :=
  List.map_append

/-- Requests were sent in order: all of them, or those up to the first that was refused. -/
def InOrder (rs : List Request) (log : Exchange) (r : Except Fault Unit) : Prop :=
  (r = .ok () ∧ log = allGranted rs) ∨
    ∃ before q f more, rs = before ++ q :: more ∧ log = allGranted before ++ [(q, some f)] ∧
      r = .error f

namespace InOrder

variable {rs rs' : List Request} {log log' : Exchange} {r : Except Fault Unit} {f : Fault}

/-- No requests are done at once. -/
theorem nil : InOrder [] [] (.ok ()) := .inl ⟨rfl, rfl⟩

/-- A single request ends as it was answered. -/
theorem single (q : Request) (reply : Option Fault) : InOrder [q] [(q, reply)] (granted reply) := by
  cases reply with
  | none => exact .inl ⟨rfl, rfl⟩
  | some f => exact .inr ⟨[], q, f, [], rfl, rfl, rfl⟩

/-- Requests that follow granted ones. -/
theorem append (h : InOrder rs log (.ok ())) (h' : InOrder rs' log' r) :
    InOrder (rs ++ rs') (log ++ log') r := by
  rcases h with ⟨-, rfl⟩ | ⟨_, _, _, _, -, -, hr⟩
  · rcases h' with ⟨hr, rfl⟩ | ⟨before, q, f, more, rfl, rfl, hr⟩
    · exact .inl ⟨hr, (allGranted_append rs rs').symm⟩
    · exact .inr ⟨rs ++ before, q, f, more, by simp, by simp [allGranted_append], hr⟩
  · cases hr

/-- Nothing follows a refused request. -/
theorem append_of_error (h : InOrder rs log (.error f)) : InOrder (rs ++ rs') log (.error f) := by
  rcases h with ⟨hr, -⟩ | ⟨before, q, f', more, rfl, hlog, hr⟩
  · cases hr
  · exact .inr ⟨before, q, f', more ++ rs', by simp, hlog, hr⟩

end InOrder

namespace Adapter

variable {s : Session}

/-- A request to a container comes after the lookup. -/
theorem sendTo_meets (id : String) (q : Request) :
    (sendTo id q).Meets s (InOrder [.findContainer id, q]) := by
  refine Meets.bind (Meets.send (InOrder.single _)) ?_ ?_
  · intro log _ t hfound _
    exact Meets.send fun reply => hfound.append (InOrder.single q reply)
  · intro log e hlost
    exact hlost.append_of_error

/-! ### Copies -/

/-- The failure of a copy to a path. -/
def copyFailed (path text : String) : Failure :=
  .execFailed ["copy_to", path] none [] [] (some text)

/-- The directory and the file that bring a payload to its place. -/
def parcelOf (a : Adapter) (p : Payload) : String × Archive.File :=
  a.parcel p.content p.target p.mode

/-- The requests that hand a payload over. -/
def delivery (a : Adapter) (id : String) (p : Payload) : List Request :=
  [.findContainer id, .putArchive (a.parcelOf p).1 (a.parcelOf p).2]

variable (a : Adapter) (id : String)

/-- A copy is the lookup and the archive, and what fails in it is named after its path. -/
theorem copy_meets (p : Payload) :
    (a.copy id p.content p.target p.mode).Meets s fun log r =>
      ∃ r', InOrder (a.delivery id p) log r' ∧ r = named (copyFailed p.target) r' :=
  Meets.refusedAs ((sendTo_meets id _).mono fun _ r h => ⟨r, h, rfl⟩)

/-- Whether a creation sees to a fault that ends its copies: an answer of the engine to one of their
requests, which makes that copy fail, or the failure of a copy itself. -/
def isCopyFailure : Fault → Bool
  | .engine refusal _ => refusal.isAnswer
  | .failure (.execFailed ..) => true
  | _ => false

/-- What the copies come to: they are all granted, or they end with a refusal to which the rollback
sees or does not. -/
inductive Copied (rs : List Request) : Exchange → Except Fault Unit → Prop where
  | all : Copied rs (allGranted rs) (.ok ())
  | failed (before : List Request) (q : Request) (more : List Request) (f : Fault)
      (hrs : rs = before ++ q :: more) (hf : isCopyFailure f = true) (command : List String)
      (code : Option Int) (out err : Text.Utf8.Bytes) (reason : Option String) :
      Copied rs (allGranted before ++ [(q, some f)])
        (.error (.failure (.execFailed command code out err reason)))
  | cutOff (before : List Request) (q : Request) (more : List Request) (f : Fault)
      (hrs : rs = before ++ q :: more) (hf : isCopyFailure f = false) :
      Copied rs (allGranted before ++ [(q, some f)]) (.error f)

/-- All that was sent of deliveries is one of their requests. -/
theorem Copied.mem {rs : List Request} {log : Exchange} {r : Except Fault Unit}
    {x : Request × Option Fault}
    (h : Copied rs log r) (hx : x ∈ log) : x.1 ∈ rs := by
  have hgranted : ∀ before, x ∈ allGranted before → x.1 ∈ before := by
    intro before hx
    obtain ⟨q, hq, rfl⟩ := List.mem_map.mp hx
    exact hq
  -- Those before the last were granted, and the last one is a delivery too.
  cases h with
  | all => exact hgranted _ hx
  | failed before q more f hrs | cutOff before q more f hrs =>
    rw [hrs]
    rcases List.mem_append.mp hx with hx | hx
    · exact List.mem_append_left _ (hgranted _ hx)
    · rw [List.mem_singleton.mp hx]
      simp

/-- A copy that is refused fails as the failure of a copy if that is seen to, and as it was refused
else. -/
theorem named_copyFailed (path : String) (f : Fault) :
    (isCopyFailure f = true ∧ ∃ command code out err reason,
      named (copyFailed path) (.error f : Except Fault Unit) =
        .error (.failure (.execFailed command code out err reason))) ∨
    (isCopyFailure f = false ∧
      named (copyFailed path) (.error f : Except Fault Unit) = .error f) := by
  -- Only an answer of the engine is named; what is a copy failure already is passed on as it is.
  cases f with
  | engine refusal text =>
    by_cases hanswer : refusal.isAnswer = true
    · refine .inl ⟨hanswer, ["copy_to", path], none, [], [], some text, ?_⟩
      simp only [named, if_pos hanswer, copyFailed]
    · refine .inr ⟨Bool.eq_false_iff.mpr hanswer, ?_⟩
      simp only [named, if_neg hanswer]
  | failure failure =>
    cases failure with
    | execFailed command code out err reason =>
      exact .inl ⟨rfl, command, code, out, err, reason, rfl⟩
    | _ => exact .inr ⟨rfl, rfl⟩
  | _ => exact .inr ⟨rfl, rfl⟩

/-- Requests that were sent in order were copied up to the first failure. -/
theorem copied_of_inOrder {rs : List Request} {log : Exchange} {r : Except Fault Unit}
    (h : InOrder rs log r) (path : String) : Copied rs log (named (copyFailed path) r) := by
  rcases h with ⟨rfl, rfl⟩ | ⟨before, q, f, more, hrs, rfl, rfl⟩
  · exact .all
  · rcases named_copyFailed path f with ⟨hf, command, code, out, err, reason, hnamed⟩ | ⟨hf, hnamed⟩
    · rw [hnamed]
      exact .failed before q more f hrs hf command code out err reason
    · rw [hnamed]
      exact .cutOff before q more f hrs hf

/-- The copies hand over the payloads in order, up to the first request that is refused. -/
theorem copyAll_meets (ps : List Payload) :
    (a.copyAll id ps).Meets s fun log r =>
      ∃ r' path, InOrder (ps.flatMap (a.delivery id)) log r' ∧ r = named (copyFailed path) r' := by
  -- By the payloads: each starts only when the one before has been handed over.
  induction ps generalizing s with
  | nil => exact Meets.give ⟨.ok (), "", InOrder.nil, rfl⟩
  | cons p rest ih =>
    refine Meets.bind (a.copy_meets id p) ?_ ?_
    · rintro log _ t ⟨r, hr, hok⟩ _
      rw [named_eq_ok.mp hok.symm] at hr
      exact ih.mono fun more r' ⟨r'', path, hmore, hr'⟩ => ⟨r'', path, hr.append hmore, hr'⟩
    · rintro log e ⟨r, hr, herror⟩
      cases r with
      | ok _ => cases herror
      | error f => exact ⟨.error f, p.target, hr.append_of_error, herror⟩

/-! ### Making the container -/

/-- The kinds of requests by which a container is made. -/
def isMaking (o : Operation) : Bool := o == .findImage || o == .pullImage || o == .createContainer

/-- Whether a container was made. -/
def Made (log : Exchange) : Prop := ∃ c, (Request.createContainer c, none) ∈ log

/-- A container was made in two exchanges if it was in one of them. -/
theorem made_append_iff {log more : Exchange} : Made (log ++ more) ↔ Made log ∨ Made more := by
  simp [Made, exists_or]

/-- Looking up and pulling images makes no container. -/
theorem not_made_of_images {log : Exchange}
    (h : ∀ x ∈ log, x.1.operation = .findImage ∨ x.1.operation = .pullImage) : ¬ Made log := by
  rintro ⟨c, hc⟩
  rcases h _ hc with h | h <;> cases h

/-- All that is done for an image is to look it up and to pull it. -/
theorem ensureImage_meets (spec : Spec) :
    (a.ensureImage spec).Meets s fun log _ =>
      ∀ x ∈ log, x.1.operation = .findImage ∨ x.1.operation = .pullImage := by
  have hfind : (Call.attempt (Call.send (.findImage spec.imageRef))).Meets s fun log _ =>
      ∃ reply, log = [(.findImage spec.imageRef, reply)] :=
    Meets.attempt (Meets.send fun reply => ⟨reply, rfl⟩)
  refine Meets.bind hfind ?_ ?_
  · -- Only a lookup that finds nothing leads to a pull.
    rintro _ found t ⟨reply, rfl⟩ -
    split
    · split
      · exact Meets.send fun _ => by simp [Request.operation]
      · exact Meets.fail (by simp [Request.operation])
    · exact Meets.ofExcept (by simp [Request.operation])
  · rintro _ e ⟨reply, rfl⟩
    simp [Request.operation]

/-- A container is made by the last request that is sent for it, if nothing was refused. -/
theorem making_meets (spec : Spec) (c : Creation) (failure : String → Failure) :
    (Call.refusedAs failure do
      a.ensureImage spec
      Call.send (.createContainer c)).Meets s fun log r =>
      (∀ x ∈ log, isMaking x.1.operation = true) ∧ (Made log ↔ r = .ok ()) := by
  refine Meets.refusedAs (Meets.bind (a.ensureImage_meets spec) ?_ ?_)
  · intro images _ t himages _
    have hnone : ¬ Made images := not_made_of_images himages
    -- The container is made by this request, if it is granted.
    refine Meets.send fun reply => ⟨?_, ?_⟩
    · intro x hx
      rcases List.mem_append.mp hx with hx | hx
      · rcases himages x hx with h | h <;> simp [isMaking, h]
      · rw [List.mem_singleton.mp hx]
        rfl
    · rw [named_eq_ok, made_append_iff, or_iff_right hnone]
      cases reply <;> simp [Made, granted]
  · intro images e himages
    refine ⟨fun x hx => ?_, ?_⟩
    · rcases himages x hx with h | h <;> simp [isMaking, h]
    · rw [named_eq_ok]
      exact iff_of_false (not_made_of_images himages) (by simp)

/-! ### What was handed over, and what was removed -/

/-- The files that were handed over, each with its directory. -/
def handedOver (log : Exchange) : List (String × Archive.File) :=
  log.filterMap fun
    | (.putArchive directory file, none) => some (directory, file)
    | _ => none

/-- Whether the container was removed. -/
def Removed (log : Exchange) : Prop := ∃ reply, (Request.remove, reply) ∈ log

/-- What is handed over in two exchanges is handed over in both. -/
theorem handedOver_append (log more : Exchange) :
    handedOver (log ++ more) = handedOver log ++ handedOver more :=
  List.filterMap_append

/-- Making a container hands nothing over. -/
theorem handedOver_making {log : Exchange} (h : ∀ x ∈ log, isMaking x.1.operation = true) :
    handedOver log = [] := by
  rw [handedOver, List.filterMap_eq_nil_iff]
  rintro ⟨q, reply⟩ hx
  have hmaking := h _ hx
  cases q with
  | putArchive directory file => cases hmaking
  | _ => rfl

/-- Deliveries that are all granted hand over each payload in its order. -/
theorem handedOver_deliveries (ps : List Payload) :
    handedOver (allGranted (ps.flatMap (a.delivery id))) = ps.map a.parcelOf := by
  induction ps with
  | nil => rfl
  | cons p rest ih =>
    have hfirst : handedOver (allGranted (a.delivery id p)) = [a.parcelOf p] := by
      simp [handedOver, allGranted, delivery]
    rw [List.flatMap_cons, allGranted_append, handedOver_append, hfirst, ih, List.map_cons,
      List.singleton_append]

/-- A delivery looks up the container and puts an archive, and nothing else. -/
theorem operation_of_mem_deliveries {ps : List Payload} {q : Request}
    (h : q ∈ ps.flatMap (a.delivery id)) :
    q.operation = .findContainer ∨ q.operation = .putArchive := by
  obtain ⟨p, -, hq⟩ := List.mem_flatMap.mp h
  simp only [delivery, List.mem_cons, List.not_mem_nil, or_false] at hq
  rcases hq with rfl | rfl
  · exact .inl rfl
  · exact .inr rfl

/-- A container was removed in two exchanges if it was in one of them. -/
theorem removed_append_iff {log more : Exchange} :
    Removed (log ++ more) ↔ Removed log ∨ Removed more := by
  simp [Removed, exists_or]

/-- Making a container removes none. -/
theorem not_removed_making {log : Exchange} (h : ∀ x ∈ log, isMaking x.1.operation = true) :
    ¬ Removed log := by
  rintro ⟨reply, hx⟩
  have hmaking := h _ hx
  cases hmaking

/-- Copies remove no container. -/
theorem not_removed_copies {ps : List Payload} {log : Exchange} {r : Except Fault Unit}
    (h : Copied (ps.flatMap (a.delivery id)) log r) : ¬ Removed log := by
  rintro ⟨reply, hx⟩
  rcases a.operation_of_mem_deliveries id (h.mem hx) with h | h <;> cases h

/-! ### Creation -/

/-- A container is removed with one request, however that is answered. -/
theorem removal_meets :
    (Call.tolerating EngineRefusal.isAnswer (Call.send .remove)).Meets s fun log _ =>
      ∃ reply, log = [(.remove, reply)] :=
  Meets.tolerating (Meets.send fun reply => ⟨reply, rfl⟩)

/-- The copies of a creation, which goes on however they end. -/
theorem attempt_copyAll_meets (ps : List Payload) :
    (Call.attempt (a.copyAll id ps)).Meets s fun log r =>
      ∃ result, r = .ok result ∧ Copied (ps.flatMap (a.delivery id)) log result := by
  refine Meets.attempt ((a.copyAll_meets id ps).mono ?_)
  rintro log _ ⟨r', path, horder, rfl⟩
  exact ⟨_, rfl, copied_of_inOrder horder path⟩

/-- A creation that fails with a container made has been refused a request of its copies. It has
removed the container then if that refusal was an answer of the engine, and it has not if there was
no answer. A creation that gives an id has handed over all files, and has removed nothing. -/
theorem create_removes_iff_answered (a : Adapter) (spec : Spec) (s : Session) :
    (a.create spec).Meets s fun log r =>
      (∀ id, r = .ok id →
        id = s.facts.id ∧ Made log ∧ handedOver log = spec.copyTo.map a.parcelOf ∧ ¬ Removed log) ∧
      (∀ e, r = .error e → Made log →
        ∃ (before : Exchange) (q : Request) (f : Fault),
          (q.operation = .findContainer ∨ q.operation = .putArchive) ∧
          ¬ Removed (before ++ [(q, some f)]) ∧
          (isCopyFailure f = true ∧
            (∃ reply, log = before ++ [(q, some f)] ++ [(Request.remove, reply)]) ∨
           isCopyFailure f = false ∧ log = before ++ [(q, some f)] ∧ e = f)) := by
  refine Meets.ofExcept_bind (fun checkup _ => ?_) (fun e _ => ?_)
  · refine Meets.bind (a.making_meets spec _ _) ?_ ?_
    · rintro making _ t ⟨hmaking, hmade⟩ ht
      have hmade : Made making := hmade.mpr rfl
      refine Meets.facts_bind (Meets.bind (a.attempt_copyAll_meets t.facts.id spec.copyTo) ?_ ?_)
      · rintro copies _ u ⟨result, hresult, hcopied⟩ -
        cases hresult
        have hstays : ¬ Removed (making ++ copies) := by
          rw [removed_append_iff]
          exact not_or.mpr ⟨not_removed_making hmaking, a.not_removed_copies t.facts.id hcopied⟩
        cases hcopied with
        | all =>
          refine Meets.give ⟨fun id hid => ?_, fun e he => (by cases he)⟩
          cases hid
          rw [List.append_nil, made_append_iff, handedOver_append, handedOver_making hmaking,
            handedOver_deliveries]
          exact ⟨by rw [ht], .inl hmade, rfl, hstays⟩
        | failed before q more f hrs hf command code out err reason =>
          have hq := a.operation_of_mem_deliveries t.facts.id (q := q) (by rw [hrs]; simp)
          rw [← List.append_assoc] at hstays
          -- However the removal is answered, it was sent.
          refine removal_meets.bind_fail ?_
          rintro _ _ _ ⟨reply, rfl⟩
          refine ⟨fun id h => (by cases h), fun e _ _ => ?_⟩
          exact ⟨making ++ allGranted before, q, f, hq, hstays, .inl ⟨hf, reply, by simp⟩⟩
        | cutOff before q more f hrs hf =>
          have hq := a.operation_of_mem_deliveries t.facts.id (q := q) (by rw [hrs]; simp)
          rw [← List.append_assoc] at hstays
          -- A refusal that is not seen to is no failure of a copy, so it takes the last branch.
          split
          · cases ‹Except.error f = .ok _›
          · cases ‹Except.error f = .error _›
            cases hf
          · cases ‹Except.error f = .error _›
            refine Meets.fail ⟨fun id h => (by cases h), fun e he _ => ?_⟩
            cases he
            exact ⟨making ++ allGranted before, q, f, hq, hstays, .inr ⟨hf, by simp, rfl⟩⟩
      · rintro _ e ⟨_, hresult, -⟩
        cases hresult
    · -- Nothing was made if making it failed.
      rintro making e ⟨hmaking, hmade⟩
      refine ⟨fun id h => (by cases h), fun _ _ h => ?_⟩
      cases hmade.mp h
  · refine ⟨fun id h => (by cases h), fun _ _ h => ?_⟩
    cases h.choose_spec

/-- The connection breaks while a file is copied in, and the container that was made stays behind.
-/
example :
    let a : Adapter := ⟨⟨Settings.usual, ""⟩, 0⟩
    let spec : Spec := { Spec.ofImage "redis" "latest" with copyTo := [⟨"/x", [0x61], 0o644⟩] }
    let s : Session := ⟨⟨"c", "created", .null, [], [], none⟩,
      [(.putArchive, [some (.engine .unusable "socket closed")])], []⟩
    let broken := a.create spec s
    broken.1 = .error (.engine .unusable "socket closed") ∧
      broken.2.sent.map Request.operation =
        [.findImage, .createContainer, .findContainer, .putArchive] := by
  exact ⟨rfl, rfl⟩

end Adapter
end Slipway.Engine
