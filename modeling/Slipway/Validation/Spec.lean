import Slipway.Outcome
import Slipway.Validation.Condition

/-!
# `Slipway.Validation.Spec`: checks of specs, containers and outcomes

A spec whose image carries a tag, with no tag given, is split. `changed` checks a spec that is made
from another by changing some fields: the fields that are not named stay as they are.
-/

set_option autoImplicit false

namespace Slipway.Validation

/-- The fields of a mount. All but memory file systems need a source. -/
def mountFields (fields : Fields) : Checked Mount :=
  let mount : Checked Mount :=
    (fun kind target source readOnly => { kind, target, source, readOnly })
      <$> optional "kind" .volume (named MountKind.all MountKind.name) fields
      <*> required "target" string fields
      <*> optional "source" none (nullable string) fields
      <*> optional "read_only" false boolean fields
  mount.andThen fun m =>
    if m.kind ≠ .tmpfs ∧ m.source.getD "" = "" then
      .fail (.rule (m.kind.name ++ " mount for " ++ m.target ++ " needs a source"))
    else .valid m

/-- A mount. -/
def mount : Check Mount := record "Mount" mountFields

/-- A healthcheck. -/
def healthcheck : Check Healthcheck :=
  record "HealthcheckConfig" fun fields =>
    (fun test interval timeout retries startPeriod =>
        { test, interval, timeout, retries, startPeriod })
      <$> required "test" (tupleFrom 1 string) fields
      <*> optional "interval" (Binary64.ofNat 1) number fields
      <*> optional "timeout" (Binary64.ofNat 5) number fields
      <*> optional "retries" 3 integer fields
      <*> optional "start_period" (Binary64.zero false) number fields

/-- A started container. -/
def container : Check Container :=
  record "ContainerState" fun fields =>
    (fun id host ports startedAt => { id, host, ports, startedAt })
      <$> required "id" string fields
      <*> required "host" string fields
      <*> optional "ports" [] (table integer) fields
      <*> optional "started_at" none (nullable timestamp) fields

/-- What a command gave back. -/
def execResult : Check ExecResult :=
  record "ExecResult" fun fields =>
    (fun exitCode stdout stderr => { exitCode, stdout, stderr })
      <$> required "exit_code" (nullable integer) fields
      <*> optional "stdout" [] bytes fields
      <*> optional "stderr" [] bytes fields

/-- The image and tag of a record of a spec: an image reference is split if no tag is given. -/
def splitImage (fields : Fields) : Fields :=
  match Datum.entry? "tag" fields, Datum.entry? "image" fields with
  | none, some (.text reference) =>
    match Spec.splitReference? reference.toList with
    | some (name, tag) =>
      [(.text "image", .text (String.ofList name)), (.text "tag", .text (String.ofList tag))]
        ++ fields.filter fun e => !Datum.isKey "image" e.1
    | none => fields
  | _, _ => fields

/-- How the fields of a spec are found: as data to check, or as values that are there already. -/
structure SpecFields where
  field : {α : Type} → String → Check α → (Spec → α) → Checked α

/-- The ports of a list, each once, in the order of their first occurrence. -/
def distinctPorts (ports : List Port) : List Port := ports.eraseDups

/-- All fields of a spec, in order. -/
def specFrom (f : SpecFields) : Checked Spec :=
  (fun image tag name entrypoint cmd env labels exposedPorts copyTo mounts healthcheck waitFor
      execBeforeReady execAfterStart startupTimeout =>
      { image, tag, name, entrypoint, cmd, env, labels, exposedPorts, copyTo, mounts, healthcheck,
        waitFor, execBeforeReady, execAfterStart, startupTimeout })
    <$> f.field "image" (fun d => (nonemptyString d).map Subtype.val) Spec.image
    <*> f.field "tag" string Spec.tag
    <*> f.field "name" (nullable string) Spec.name
    <*> f.field "entrypoint" (nullable string) Spec.entrypoint
    <*> f.field "cmd" (tuple string) Spec.cmd
    <*> f.field "env" (table string) Spec.env
    <*> f.field "labels" (table string) Spec.labels
    <*> f.field "exposed_ports" (fun d => (tuple port d).map distinctPorts) Spec.exposedPorts
    <*> f.field "copy_to" (tuple payload) Spec.copyTo
    <*> f.field "mounts" (tuple mount) Spec.mounts
    <*> f.field "healthcheck" (nullable healthcheck) Spec.healthcheck
    <*> f.field "wait_for" (tuple condition) Spec.waitFor
    <*> f.field "exec_before_ready" (tuple source) Spec.execBeforeReady
    <*> f.field "exec_after_start" (tuple source) Spec.execAfterStart
    <*> f.field "startup_timeout" (nullable positiveNumber) Spec.startupTimeout

/-- The fields of a record of a spec. Only the image has no default. -/
def specFields (fields : Fields) : Checked Spec :=
  let fields := splitImage fields
  specFrom ⟨fun name check get =>
    if name = "image" then required name check fields
    else optional name (get (Spec.ofImage "" Spec.defaultTag)) check fields⟩

/-- A spec. -/
def spec : Check Spec := record "ContainerSpec" specFields

/-- A spec with some fields changed. -/
def changed (s : Spec) (changes : Fields) : Checked Spec :=
  specFrom ⟨fun name check get => optional name (get s) check changes⟩

/-- The phases in which a lifecycle ends, as messages list them. -/
def finalPhases : List String :=
  ["<LifecycleState.READY: 'ready'>", "<LifecycleState.FAILED: 'failed'>"]

/-- Whether an outcome is that of a container that got ready. -/
def finalPhase : Check Bool
  | .text "ready" => .valid true
  | .text "failed" => .valid false
  | _ => .fail (.notOneOf finalPhases)

/-- A phase of a lifecycle. -/
def phase : Check Phase
  | .text s =>
    match Phase.ofName? s with
    | some p => .valid p
    | none => .fail (.notAMember (Phase.all.map fun p => Text.Quoted.ofString p.name))
  | _ => .fail (.notAMember (Phase.all.map fun p => Text.Quoted.ofString p.name))

/-- The failure of an outcome, which no other fault can be. -/
def failure : Option Fault → Checked (Option Failure)
  | none => .valid none
  | some (.failure f) => .valid (some f)
  | some _ => .fail (.notInstance "ContainerError")

/-- An outcome, given the fault in it. -/
def outcome (fault : Option Fault) : Check Outcome :=
  record "LifecycleResult" fun fields =>
    (fun ok containerId container failure history =>
      { ok, containerId, container, failure, history })
      <$> required "state" finalPhase fields
      <*> optional "container_id" none (nullable string) fields
      <*> optional "container" none (nullable container) fields
      <*> (failure fault).under (.key "error")
      <*> optional "history" [] (list phase) fields

end Slipway.Validation
