import Slipway.Catalog.Dex
import Slipway.Catalog.Gitea
import Slipway.Catalog.Kafka
import Slipway.Catalog.Mongo
import Slipway.Catalog.Pulsar

/-!
# `Slipway.Catalog.Service`: the services that can be started by name
-/

set_option autoImplicit false

namespace Slipway.Catalog

/-- A service of the catalog, with its options. -/
inductive Service where
  | dex (options : Dex)
  | gitea (options : Gitea)
  | kafka (options : Kafka)
  | mongo (options : Mongo)
  | pulsar (options : Pulsar)
  | redis (options : Redis)
deriving DecidableEq, Repr

namespace Service

/-- The names of the services, in alphabetical order. -/
def names : List String := ["dex", "gitea", "kafka", "mongo", "pulsar", "redis"]

/-- The name of the model of a service's options. -/
def modelName? : String → Option String
  | "dex" => some "Dex"
  | "gitea" => some "Gitea"
  | "kafka" => some "Kafka"
  | "mongo" => some "Mongo"
  | "pulsar" => some "Pulsar"
  | "redis" => some "Redis"
  | _ => none

/-- A check of the options of a service, by its name. -/
def check? : String → Option (Validation.Check Service)
  | "dex" => some fun d => (Dex.check d).map .dex
  | "gitea" => some fun d => (Gitea.check d).map .gitea
  | "kafka" => some fun d => (Kafka.check d).map .kafka
  | "mongo" => some fun d => (Mongo.check d).map .mongo
  | "pulsar" => some fun d => (Pulsar.check d).map .pulsar
  | "redis" => some fun d => (Redis.check d).map .redis
  | _ => none

/-- The spec of a service. -/
def spec : Service → Checked Spec
  | dex d => d.spec
  | gitea g => g.spec
  | kafka k => k.spec
  | mongo m => m.spec
  | pulsar p => p.spec
  | redis r => r.spec

/-- Whether the numbers among the options can be written where the spec has them in a text. -/
def isWritable : Service → Bool
  | kafka k => k.isWritable
  | _ => true

/-- The options of a service as a record. -/
def dump : Service → Datum
  | dex d => d.dump
  | gitea g => g.dump
  | kafka k => k.dump
  | mongo m => m.dump
  | pulsar p => p.dump
  | redis r => r.dump

/-- The spec of a service with options, or what is wrong with the options or the spec. -/
def build (name : String) (options : Datum) : Except Fault Spec :=
  match check? name with
  | none => .error (.defect (.missingKey name))
  | some check =>
    match check options with
    | .invalid issues => .error (.defect (.invalid ((modelName? name).getD name) issues))
    | .valid service =>
      if service.isWritable then
        match service.spec with
        | .valid s => .ok s
        | .invalid issues => .error (.defect (.invalid "ContainerSpec" issues))
      else .error (.defect .integerTooLong)

end Service
end Slipway.Catalog
