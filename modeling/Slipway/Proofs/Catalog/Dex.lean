import Slipway.Catalog.Dex
import Slipway.Proofs.Clock
import Slipway.Proofs.Json
import Slipway.Proofs.Lifecycle.Setup
import Slipway.Proofs.Text.Utf8
import Slipway.Proofs.Validation.Restoring

/-!
# `Slipway.Proofs.Catalog.Dex`: the configuration that a Dex provider is given

The spec of a provider has one source before the container is ready: a factory that renders the
configuration for the container and copies it in. `IsConfigured` says what the options of the
provider mean for that configuration as a JSON object. What is rendered has no floating-point
numbers, so it is read back as it is (`readBack_configPayload`).

The factory needs the host port of the provider. If that is not published, it makes nothing, and the
lifecycle ends there (`run_unmade`). `spec_is_faithful` puts both together.
-/

set_option autoImplicit false

namespace Slipway.Catalog

open Slipway.World (Act Stage)

/-- A spec with a startup timeout is valid iff the timeout is positive, if there is one. -/
theorem withTimeout_eq_valid {s s' : Spec} {timeout : Option Binary64} :
    withTimeout s timeout = .valid s' ↔
      (∀ x, timeout = some x → x.IsPositive) ∧ { s with startupTimeout := timeout } = s' := by
  rw [withTimeout, Checked.map_eq_valid]
  simp only [Checked.under_eq_valid]
  -- Only a timeout that is given is checked.
  cases timeout with
  | none => simp [Datum.ofOption, Validation.nullable]
  | some x =>
    have hcheck : Validation.positiveNumber (.float x) =
        if x.IsPositive then .valid x else .fail (.notAbove 0) := rfl
    simp only [Datum.ofOption, Validation.nullable, hcheck]
    split
    case isTrue h => simp [Checked.map, h]
    case isFalse h => simp [Checked.map, Checked.fail, h]

/-- A spec takes a timeout just if that is positive. -/
theorem exists_withTimeout_iff {s : Spec} {timeout : Option Binary64} :
    (∃ s', withTimeout s timeout = .valid s') ↔ ∀ x, timeout = some x → x.IsPositive := by
  simp only [withTimeout_eq_valid]
  exact ⟨fun ⟨_, h, _⟩ => h, fun h => ⟨_, h, rfl⟩⟩

namespace Dex

/-! ### The configuration -/

/-- A JSON object is the configuration of a provider at an address: it names the address, lists the
clients and the users in order with all their texts, and has a member `oauth2` iff password grants
are allowed. -/
structure IsConfigured (d : Dex) (address : String) (j : Json) : Prop where
  object : j.IsDistinct
  issuer : j.get? "issuer" = some (.text address)
  clients : j.get? "staticClients" = some (.list (d.clients.map fun c =>
    .object [("id", .text c.id), ("name", .text c.name),
      ("redirectURIs", .list (c.redirectUris.map .text)), ("secret", .text c.secret)]))
  users : j.get? "staticPasswords" = some (.list (d.users.map fun u =>
    .object [("email", .text u.email), ("hash", .text u.hash), ("username", .text u.username),
      ("userID", .text u.userId)]))
  oauth2 : (j.get? "oauth2").isSome ↔ d.allowPasswordGrants = true

variable {d : Dex} {address : String}

/-- The configuration that is written is the one that the service asks for. -/
theorem config_isConfigured (d : Dex) (address : String) :
    d.IsConfigured address (d.config address) := by
  unfold config
  cases hgrants : d.allowPasswordGrants with
  | true => exact ⟨⟨_, rfl, by simp⟩, rfl, rfl, rfl, by simp [hgrants, Json.get?]⟩
  | false => exact ⟨⟨_, rfl, by simp⟩, rfl, rfl, rfl, by simp [hgrants, Json.get?]⟩

/-- The configuration has no floating-point numbers. -/
theorem config_isExact (d : Dex) (address : String) : (d.config address).IsExact := by
  unfold config
  cases d.allowPasswordGrants <;> simp [DexClient.toJson, DexUser.toJson]

/-- The port of the service, as containers name it. -/
theorem key_port : port.key = "5556/tcp" := by decide

/-- What is rendered for a container is the text of the configuration at its address. -/
theorem renderConfig_eq {c : Container} {n : Int} (h : c.ports.lookup "5556/tcp" = some n) :
    d.renderConfig c =
      .ok ((d.config ("http://" ++ c.host ++ ":" ++ toString n)).render Json.compact) := by
  have hresolve : c.resolve port = .ok n := by
    rw [Container.resolve, key_port, h]
  rw [renderConfig, issuer, hresolve]
  rfl

/-- Without the port nothing is rendered. -/
theorem renderConfig_of_unpublished {c : Container} (h : c.ports.lookup "5556/tcp" = none) :
    d.renderConfig c = .error (.failure (.portNotPublished "5556/tcp")) := by
  have hresolve : c.resolve port = .error (.failure (.portNotPublished "5556/tcp")) := by
    rw [Container.resolve, key_port, h]
  rw [renderConfig, issuer, hresolve]
  rfl

/-! ### The source before the container is ready -/

/-- The factory that copies the configuration in. -/
def configFactory (d : Dex) : Factory :=
  Rendering.materializer configFile (fun c => (d.renderConfig c).map .text) Payload.defaultMode

/-- The configuration at an address as a file. -/
def configPayload (d : Dex) (address : String) : Payload :=
  ⟨configFile, Text.Utf8.ofString ((d.config address).render Json.compact), Payload.defaultMode⟩

/-- What is copied in for a container is the configuration at its address. -/
theorem configFactory_eq {c : Container} {n : Int} (h : c.ports.lookup "5556/tcp" = some n) :
    d.configFactory c =
      .ok [.copy (d.configPayload ("http://" ++ c.host ++ ":" ++ toString n))] := by
  rw [configFactory, Rendering.materializer, renderConfig_eq h]
  rfl

/-- Without the port there is no configuration, but the failure that names the port. -/
theorem configFactory_of_unpublished {c : Container} (h : c.ports.lookup "5556/tcp" = none) :
    d.configFactory c = .error (.failure (.portNotPublished "5556/tcp")) := by
  rw [configFactory, Rendering.materializer, renderConfig_of_unpublished h]
  rfl

/-- The file holds the text of the configuration in UTF-8, which is read back as the configuration.
-/
theorem readBack_configPayload (d : Dex) (address : String) :
    ∃ text j, Text.Utf8.toString? (d.configPayload address).content = .ok text ∧
      Json.ofString? text = some j ∧ d.IsConfigured address j := by
  refine ⟨(d.config address).render Json.compact, d.config address, ?_, ?_,
    d.config_isConfigured address⟩
  · rw [configPayload, Text.Utf8.toString?_ofString]
  · exact Json.ofString?_render Json.compact_isProper (d.config_isExact address)

/-- The spec has one factory of steps and no files. -/
theorem spec_eq_valid {s : Spec} (h : d.spec = .valid s) :
    s.execBeforeReady = [.factory d.configFactory] ∧ s.copyTo = [] := by
  obtain ⟨-, rfl⟩ := withTimeout_eq_valid.mp h
  exact ⟨rfl, rfl⟩

/-! ### The main result -/

/-- The spec of a provider gives it the configuration that its options mean. If the port of the
provider is not published, a lifecycle that has started the container ends with that failure before
it is ready, and no file has been copied. -/
theorem spec_is_faithful (d : Dex) :
    ((∃ s, d.spec = .valid s) ↔ ∀ x, d.startupTimeout = some x → x.IsPositive) ∧
    ∀ s, d.spec = .valid s → ∃ make : Factory, s.execBeforeReady = [.factory make] ∧
      (∀ (c : Container) (n : Int), c.ports.lookup "5556/tcp" = some n →
        ∃ p text j, make c = .ok [.copy p] ∧ Text.Utf8.toString? p.content = .ok text ∧
          Json.ofString? text = some j ∧
          d.IsConfigured ("http://" ++ c.host ++ ":" ++ toString n) j) ∧
      ∀ (settings : Settings) (timeout : Option Binary64) (ordinal : Nat) (world : World)
        (box : World.Box) (now : Int),
        (box.portTable s.exposedPorts).lookup "5556/tcp" = none →
        .started ∈ (Lifecycle.run settings s timeout ordinal (.ready world box now)).2.history →
        Lifecycle.EndsFailed settings box (Act.idOf box s ordinal) (.portNotPublished "5556/tcp")
            [.created, .started, .preReadyExec]
            (Lifecycle.run settings s timeout ordinal (.ready world box now)) ∧
          ∀ x ∈ (Lifecycle.run settings s timeout ordinal (.ready world box now)).2.trace,
            ¬ x.note.IsCopy := by
  constructor
  · exact exists_withTimeout_iff
  · intro s hs
    obtain ⟨hsources, hfiles⟩ := spec_eq_valid hs
    -- What the factory makes is read back, and where it makes nothing the lifecycle fails.
    refine ⟨d.configFactory, hsources, ?_, ?_⟩
    · intro c n hport
      obtain ⟨text, j, htext, hj, hconfigured⟩ :=
        d.readBack_configPayload ("http://" ++ c.host ++ ":" ++ toString n)
      exact ⟨_, text, j, configFactory_eq hport, htext, hj, hconfigured⟩
    · intro settings timeout ordinal world box now hport hreached
      refine Lifecycle.run_unmade hfiles hsources (fun c hc => ?_) hreached
      exact configFactory_of_unpublished (hc ▸ hport)

/-- A provider with one client and one user, and with password grants. -/
def trial : Dex where
  tag := "v2.41.1"
  clients := [DexClient.simple]
  users := [DexUser.simple]
  allowPasswordGrants := true
  startupTimeout := none

/-- A container of the provider whose port is published. -/
def reachable : Container := ⟨"dex", "localhost", [("5556/tcp", 40000)], none⟩

/-- A box in which no port is published. -/
def unpublished : World.Box := { World.Box.quiet with ports := some [] }

/-- The trial is configured where its port is published, and fails where it is not. -/
theorem spec_is_faithful_of_trial :
    ∃ s make, trial.spec = .valid s ∧ s.execBeforeReady = [.factory make] ∧
      (∃ p text j, make reachable = .ok [.copy p] ∧ Text.Utf8.toString? p.content = .ok text ∧
        Json.ofString? text = some j ∧ trial.IsConfigured "http://localhost:40000" j) ∧
      Lifecycle.EndsFailed .usual unpublished "dexidp/dex:v2.41.1#1" (.portNotPublished "5556/tcp")
        [.created, .started, .preReadyExec]
        (Lifecycle.run .usual s none 1 (.ready .quiet unpublished 0)) := by
  obtain ⟨hvalid, hall⟩ := spec_is_faithful trial
  obtain ⟨s, hs⟩ := hvalid.mpr (by simp [trial])
  obtain ⟨make, hsources, hmapped, hrun⟩ := hall s hs
  obtain ⟨-, rfl⟩ := withTimeout_eq_valid.mp hs
  -- The container without the port does come to the factory: it is started.
  exact ⟨_, make, hs, hsources, hmapped reachable 40000 rfl,
    (hrun .usual none 1 .quiet unpublished 0 rfl (by decide +kernel)).1⟩

/-- A box in which no port is published, and in which an interrupt comes while a container is
removed. -/
def interrupting : World.Box :=
  { unpublished with removeFault := some (.interrupt "stop") }

/-- The failure is not always the outcome: an interrupt that comes from the removal takes its place.
-/
theorem unpublished_interrupted :
    ∃ s, trial.spec = .valid s ∧ (interrupting.portTable s.exposedPorts).lookup "5556/tcp" = none ∧
      (Lifecycle.run .usual s none 1 (.ready .quiet interrupting 0)).2.history =
        [.created, .started, .preReadyExec, .failed] ∧
      (Lifecycle.run .usual s none 1 (.ready .quiet interrupting 0)).1 =
        .error (.interrupt "stop") := by
  refine ⟨_, withTimeout_eq_valid.mpr ⟨by simp [trial], rfl⟩, rfl, ?_, ?_⟩
  · decide +kernel
  · decide +kernel

end Dex
end Slipway.Catalog
