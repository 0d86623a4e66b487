import Slipway.Catalog.Redis

/-!
# `Slipway.Catalog.Pulsar`: a standalone Apache Pulsar

Overrides of its configuration go in as environment variables; tenants, namespaces and topics are
created once it is ready, then the extra commands run.
-/

set_option autoImplicit false

namespace Slipway.Catalog

/-- The options of a Pulsar broker. -/
structure Pulsar where
  tag : String
  config : List (String × String)
  tenants : List String
  namespaces : List String
  topics : List String
  adminCommands : List (List String)
  startupTimeout : Option Binary64
deriving DecidableEq, Repr

namespace Pulsar

open Validation (optional string list table nullable number)

/-- The port of the broker, and that of its administration. -/
def brokerPort : Port := .tcp 6650
def adminPort : Port := .tcp 8080

/-- A check of options. -/
def check : Validation.Check Pulsar :=
  Validation.record "Pulsar" fun fields =>
    (fun tag config tenants namespaces topics adminCommands startupTimeout =>
        { tag, config, tenants, namespaces, topics, adminCommands, startupTimeout })
      <$> optional "tag" "2.10.6" string fields
      <*> optional "config" [] (table string) fields
      <*> optional "tenants" [] (list string) fields
      <*> optional "namespaces" [] (list string) fields
      <*> optional "topics" [] (list string) fields
      <*> optional "admin_commands" [] (list (list string)) fields
      <*> optional "startup_timeout" none (nullable number) fields

/-- The options as a record. -/
def dump (p : Pulsar) : Datum :=
  .record [("tag", .text p.tag), ("config", Datum.ofTable p.config),
    ("tenants", Datum.ofList .text p.tenants), ("namespaces", Datum.ofList .text p.namespaces),
    ("topics", Datum.ofList .text p.topics),
    ("admin_commands", Datum.ofList (Datum.ofList .text) p.adminCommands),
    ("startup_timeout", Datum.ofOption .float p.startupTimeout)]

/-- The environment: one variable for each override. -/
def env (p : Pulsar) : List (String × String) :=
  p.config.map fun e => ("PULSAR_PREFIX_" ++ e.1, e.2)

/-- The commands that set the broker up, in order. -/
def adminInvocations (p : Pulsar) : List (List String) :=
  (p.tenants.map (fun t => ["tenants", "create", t])
    ++ p.namespaces.map (fun n => ["namespaces", "create", n])
    ++ p.topics.map (fun t => ["topics", "create", t])
    ++ p.adminCommands).map ("bin/pulsar-admin" :: ·)

/-- The spec of the broker. -/
def spec (p : Pulsar) : Checked Spec :=
  withTimeout
    { Spec.ofImage "apachepulsar/pulsar" p.tag with
      cmd := ["sh", "-c",
        "bin/apply-config-from-env.py conf/standalone.conf && bin/pulsar standalone"]
      env := p.env
      exposedPorts := [brokerPort, adminPort]
      mounts := [Mount.memory "/pulsar/data"]
      waitFor := [.onStdout "HTTP Service started at", .onStdout "messaging service is ready"]
      execAfterStart := p.adminInvocations.map fun c => .step (.command (.checked c)) }
    p.startupTimeout

end Pulsar
end Slipway.Catalog
