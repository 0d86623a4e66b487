import Slipway.Plan
import Slipway.Proofs.Validation.Spec

/-!
# `Slipway.Proofs.Validation.Plan`: options and plans are restored, and so is all data

The options of the services, entries of plans and plans are records as well. A dump writes the
fields of a client or user of Dex under the second of their names. An entry is restored with the
rule that it names a service or holds a spec, and a dump of a plan names its services, so that it is
not taken for the short form of another plan.

`restores_all_data` says it of all data that can be handed in from outside: whatever a check gives,
it gives again for the dump of that. -/

set_option autoImplicit false

namespace Slipway

open Checked (yields_seq yields_fmap yields_andThen yields_map)
open Validation

/-! ### The options of services -/

namespace Catalog

/-- Lists of texts are read back. -/
theorem texts_lossless : Lossless (list string) (Datum.ofList .text) := string_lossless.list

/-- Lists of commands are read back. -/
theorem commands_lossless : Lossless (list (list string)) (Datum.ofList (Datum.ofList .text)) :=
  texts_lossless.list

/-- Timeouts that may be missing are read back. -/
theorem timeout_lossless : Lossless (nullable number) (Datum.ofOption .float) :=
  number_lossless.nullable (by simp)

/-- The clients of an identity provider are read back. -/
theorem DexClient.check_lossless : Lossless DexClient.check DexClient.dump := by
  refine lossless_record fun c => ⟨_, rfl, ?_⟩
  simp only [yields_seq, yields_fmap]
  exact ⟨_, string_lossless.required rfl, _, string_lossless.required rfl,
    _, texts_lossless.requiredAs rfl rfl, _, string_lossless.required rfl, rfl⟩

/-- So are its users. -/
theorem DexUser.check_lossless : Lossless DexUser.check DexUser.dump := by
  refine lossless_record fun u => ⟨_, rfl, ?_⟩
  simp only [yields_seq, yields_fmap]
  exact ⟨_, string_lossless.required rfl, _, string_lossless.required rfl,
    _, string_lossless.required rfl, _, string_lossless.requiredAs rfl rfl, rfl⟩

/-- So is its configuration. -/
theorem DexConfig.check_lossless : Lossless DexConfig.check DexConfig.dump := by
  refine lossless_record fun c => ⟨_, rfl, ?_⟩
  simp only [yields_seq, yields_fmap]
  exact ⟨_, string_lossless.required rfl, _, anyMapping_lossless.optional rfl,
    _, anyMapping_lossless.optional rfl, _, DexClient.check_lossless.list.optionalAs rfl rfl,
    _, boolean_lossless.optionalAs rfl rfl, _, DexUser.check_lossless.list.optionalAs rfl rfl,
    _, (anyMapping_lossless.nullable (by simp)).optional rfl, rfl⟩

/-- So is the service as a whole. -/
theorem Dex.check_lossless : Lossless Dex.check Dex.dump := by
  refine lossless_record fun d => ⟨_, rfl, ?_⟩
  simp only [yields_seq, yields_fmap]
  exact ⟨_, string_lossless.optional rfl, _, DexClient.check_lossless.list.optional rfl,
    _, DexUser.check_lossless.list.optional rfl, _, boolean_lossless.optional rfl,
    _, timeout_lossless.optional rfl, rfl⟩

/-- Visibilities are read back from their names. -/
theorem visibility_lossless :
    Lossless (named Visibility.all Visibility.name) fun v => .text v.name :=
  named_lossless fun v => by cases v <;> rfl

/-- Repositories are read back. -/
theorem GiteaRepo.check_lossless : Lossless GiteaRepo.check GiteaRepo.dump := by
  refine lossless_record fun r => ⟨_, rfl, ?_⟩
  simp only [yields_seq, yields_fmap]
  exact ⟨_, string_lossless.required rfl, _, visibility_lossless.optional rfl, rfl⟩

/-- So is the service that hosts them. -/
theorem Gitea.check_lossless : Lossless Gitea.check Gitea.dump := by
  refine lossless_record fun g => ⟨_, rfl, ?_⟩
  simp only [yields_seq, yields_fmap]
  exact ⟨_, string_lossless.optional rfl, _, string_lossless.optional rfl,
    _, string_lossless.optional rfl, _, optionalText_lossless.optional rfl,
    _, GiteaRepo.check_lossless.list.optional rfl, _, commands_lossless.optional rfl,
    _, timeout_lossless.optional rfl, rfl⟩

/-- A broker is restored. -/
theorem Kafka.check_restores : Restores Kafka.check Kafka.dump := by
  refine restores_record fun entries k hread => ⟨_, rfl, ?_⟩
  simp only [yields_seq, yields_fmap] at hread ⊢
  obtain ⟨jvm, -, tag, -, cluster, -, broker, -, replication, hreplication, timeout, -, rfl⟩ :=
    hread
  exact ⟨_, boolean_lossless.optional rfl, _, string_lossless.optional rfl,
    _, string_lossless.optional rfl, _, integer_lossless.optional rfl,
    _, (integerFrom_restores 1).optional rfl hreplication rfl, _, timeout_lossless.optional rfl,
    rfl⟩

/-- Kinds of databases are read back from their names. -/
theorem mongoKind_lossless : Lossless (named MongoKind.all MongoKind.name) fun k => .text k.name :=
  named_lossless fun k => by cases k <;> rfl

/-- Databases are read back. -/
theorem Mongo.check_lossless : Lossless Mongo.check Mongo.dump := by
  refine lossless_record fun m => ⟨_, rfl, ?_⟩
  simp only [yields_seq, yields_fmap]
  exact ⟨_, mongoKind_lossless.optional rfl, _, string_lossless.optional rfl,
    _, timeout_lossless.optional rfl, rfl⟩

/-- A message service is restored. -/
theorem Pulsar.check_restores : Restores Pulsar.check Pulsar.dump := by
  refine restores_record fun entries p hread => ⟨_, rfl, ?_⟩
  simp only [yields_seq, yields_fmap] at hread ⊢
  obtain ⟨tag, -, config, hconfig, tenants, -, namespaces, -, topics, -, commands, -, timeout, -,
      rfl⟩ :=
    hread
  exact ⟨_, string_lossless.optional rfl, _, env_restores.optional rfl hconfig rfl,
    _, texts_lossless.optional rfl, _, texts_lossless.optional rfl, _, texts_lossless.optional rfl,
    _, commands_lossless.optional rfl, _, timeout_lossless.optional rfl, rfl⟩

/-- A cache is read back. -/
theorem Redis.check_lossless : Lossless Redis.check Redis.dump := by
  refine lossless_record fun r => ⟨_, rfl, ?_⟩
  simp only [yields_seq, yields_fmap]
  exact ⟨_, string_lossless.optional rfl, _, boolean_lossless.optional rfl,
    _, timeout_lossless.optional rfl, rfl⟩

end Catalog

/-! ### Plans -/

/-- Entries of a plan are restored. -/
theorem ServiceEntry.check_restores : Restores ServiceEntry.check ServiceEntry.dump := by
  have hspec : Restores (nullable Validation.spec) (Datum.ofOption Spec.dump) :=
    spec_restores.nullable fun s => by simp [Spec.dump, Datum.record]
  have hoptions : Restores anyTable Datum.record := any_lossless.restores.table
  refine restores_record fun entries e hread => ⟨_, rfl, ?_⟩
  simp only [yields_andThen, yields_seq, yields_fmap] at hread ⊢
  obtain ⟨service, -, options, hopts, own, hown, hrule⟩ := hread
  -- The rule is about the entry alone, whichever data it comes from.
  split at hrule
  · obtain ⟨_, hfail, -⟩ := hrule
    cases hfail
  · obtain ⟨_, heq, rfl⟩ := hrule
    cases heq
    refine ⟨_, optionalText_lossless.optional rfl, _, hoptions.optional rfl hopts rfl,
      _, hspec.optional rfl hown rfl, ?_⟩
    simp only [‹ServiceEntry.brokenRule? _ = none›]
    exact ⟨_, rfl, rfl⟩

/-- A record of a plan names its services, so nothing is put around it. -/
theorem Plan.expandShorthand_dump (p : Plan) : expandShorthand p.dump = p.dump := rfl

/-- So are plans. -/
theorem Plan.check_restores : Restores Plan.check Plan.dump := by
  have hfields : Restores (record "LaunchPlan" fun fields =>
      (required "services" (listFrom 1 ServiceEntry.check) fields).map Plan.mk) Plan.dump := by
    refine restores_record fun entries p hread => ⟨_, rfl, ?_⟩
    simp only [yields_map] at hread ⊢
    obtain ⟨services, hservices, rfl⟩ := hread
    exact ⟨_, (ServiceEntry.check_restores.listFrom 1).required hservices rfl, rfl⟩
  intro d p hd
  have hback := hfields (expandShorthand d) p hd
  rwa [← expandShorthand_dump] at hback

/-! ### All data -/

/-- Validation undoes dumping. Whatever data a check was given, the dump of the value that it gave
is checked to the same value: for ports, conditions and completions, by the model of their kind and
by that of all kinds, for steps, mounts, healthchecks, containers and specs, for plans and their
entries, and for the options of services. -/
theorem restores_all_data :
    Restores port Port.dump ∧
    -- Conditions
    Restores (record "LogMessage" logMessageFields) LogMessage.dump ∧
    Restores (record "Http" httpFields) HttpProbe.dump ∧
    Restores (record "Duration" (delayFields "duration")) (fun n => (Condition.delay n).dump) ∧
    Restores (record "Healthcheck" (kind "healthcheck")) (fun _ => Condition.healthcheck.dump) ∧
    Restores (record "All" fun fields => allFields fields (membersField fields)) Condition.dump ∧
    Restores condition Condition.dump ∧
    -- Completions
    Restores (record "ExitCode" exitCodeFields) Completion.dump ∧
    Restores (record "OutputMessage" outputMessageFields) Completion.dump ∧
    Restores (record "CmdSleep" (delayFields "sleep")) (fun n => (Completion.sleep n).dump) ∧
    Restores completion Completion.dump ∧
    -- Steps, and what a spec is made of
    Restores command Command.dump ∧
    Restores payload Payload.dump ∧
    Restores mount Mount.dump ∧
    Restores healthcheck Healthcheck.dump ∧
    Restores container Container.dump ∧
    Restores Validation.spec Spec.dump ∧
    -- Plans
    Restores ServiceEntry.check ServiceEntry.dump ∧
    Restores Plan.check Plan.dump ∧
    -- Options
    Restores Catalog.DexClient.check Catalog.DexClient.dump ∧
    Restores Catalog.DexUser.check Catalog.DexUser.dump ∧
    Restores Catalog.DexConfig.check Catalog.DexConfig.dump ∧
    Restores Catalog.Dex.check Catalog.Dex.dump ∧
    Restores Catalog.GiteaRepo.check Catalog.GiteaRepo.dump ∧
    Restores Catalog.Gitea.check Catalog.Gitea.dump ∧
    Restores Catalog.Kafka.check Catalog.Kafka.dump ∧
    Restores Catalog.Mongo.check Catalog.Mongo.dump ∧
    Restores Catalog.Pulsar.check Catalog.Pulsar.dump ∧
    Restores Catalog.Redis.check Catalog.Redis.dump :=
  ⟨port_lossless.restores, logMessage_lossless.restores, http_restores,
    (delay_lossless "Duration" "duration").restores, healthcheckKind_lossless.restores,
    all_restores,
    condition_restores, exitCode_restoresAs.record "ExitCode",
    outputMessage_restoresAs.record "OutputMessage", (delay_lossless "CmdSleep" "sleep").restores,
    completion_restores, command_restores, payload_restores, mount_restores, healthcheck_restores,
    container_restores, spec_restores, ServiceEntry.check_restores, Plan.check_restores,
    Catalog.DexClient.check_lossless.restores, Catalog.DexUser.check_lossless.restores,
    Catalog.DexConfig.check_lossless.restores, Catalog.Dex.check_lossless.restores,
    Catalog.GiteaRepo.check_lossless.restores, Catalog.Gitea.check_lossless.restores,
    Catalog.Kafka.check_restores, Catalog.Mongo.check_lossless.restores,
    Catalog.Pulsar.check_restores, Catalog.Redis.check_lossless.restores⟩

/-- A spec in short forms: the tag is in the image reference, a port is listed twice, and a path
lacks its slash. -/
def shortSpec : Datum :=
  .record [("image", .text "redis:7.2"),
    ("exposed_ports", .list [.int 6379, .text "6379/tcp", .text "53/udp"]),
    ("wait_for", .list [.record [("kind", .text "all"), ("conditions", .list [.record
      [("kind", .text "http"), ("path", .text "health"), ("port", .text "8080")]])]]),
    ("exec_after_start", .list [.record [("cmd", .list [.text "ls"])],
      .record [("target", .text "/x"), ("content", .text "a")]])]

/-- The law at a spec with a tag in its image and two spellings of ports. -/
theorem restores_shortSpec :
    ∃ s, Validation.spec shortSpec = .valid s ∧ s.imageRef = "redis:7.2" ∧
      s.exposedPorts.map Port.key = ["6379/tcp", "53/udp"] ∧ Validation.spec s.dump = .valid s := by
  obtain ⟨-, -, -, -, -, -, -, -, -, -, -, -, -, -, -, -, hspec, -⟩ := restores_all_data
  exact ⟨_, rfl, rfl, rfl, hspec shortSpec _ rfl⟩

end Slipway
