import Slipway.Catalog.Redis

/-!
# `Slipway.Catalog.Mongo`: a MongoDB server

On its own, or as a replica set of one member, which is initiated once the server accepts
connections.
-/

set_option autoImplicit false

namespace Slipway.Catalog

/-- How a MongoDB server runs. -/
inductive MongoKind where
  | standalone
  | replicaSet
deriving DecidableEq, Repr, Inhabited

namespace MongoKind

/-- The kinds in the order in which messages list them. -/
def all : List MongoKind := [standalone, replicaSet]

/-- The name of a kind. -/
def name : MongoKind → String
  | standalone => "standalone"
  | replicaSet => "repl_set"

end MongoKind

/-- The options of a MongoDB server. -/
structure Mongo where
  kind : MongoKind
  tag : String
  startupTimeout : Option Binary64
deriving DecidableEq, Repr

namespace Mongo

/-- The port of the server. -/
def port : Port := .tcp 27017

/-- A check of options. -/
def check : Validation.Check Mongo :=
  Validation.record "Mongo" fun fields =>
    (fun kind tag startupTimeout => { kind, tag, startupTimeout })
      <$> Validation.optional "kind" .standalone (Validation.named MongoKind.all MongoKind.name)
        fields
      <*> Validation.optional "tag" "5.0.6" Validation.string fields
      <*> Validation.optional "startup_timeout" none (Validation.nullable Validation.number) fields

/-- The options as a record. -/
def dump (m : Mongo) : Datum :=
  .record [("kind", .text m.kind.name), ("tag", .text m.tag),
    ("startup_timeout", Datum.ofOption .float m.startupTimeout)]

/-- The command that initiates the replica set. -/
def initiate : Command where
  argv := ["mongosh", "--quiet", "--eval", "rs.initiate()"]
  completion := some (.output .stdout "Using a default configuration for the set")
  readiness := [.onStdout "Rebuilding PrimaryOnlyService due to stepUp"]
  user := none
  workdir := none
  description := none

/-- The spec of the server. -/
def spec (m : Mongo) : Checked Spec :=
  let base := { Spec.ofImage "mongo" m.tag with
    exposedPorts := [port]
    waitFor := [.onStdout "Waiting for connections"] }
  withTimeout
    (match m.kind with
      | .standalone => base
      | .replicaSet => { base with
          cmd := ["--replSet", "rs"]
          execAfterStart := [.step (.command initiate)] })
    m.startupTimeout

end Mongo
end Slipway.Catalog
