import Slipway.Catalog.Redis
import Slipway.Rendering

/-!
# `Slipway.Catalog.Kafka`: an Apache Kafka broker

The broker has to advertise a host port that is only known once its container runs. So the
container starts as a loop that waits for a start script; the script is written after the start,
with the host port in it, and readiness is read from the log.
-/

set_option autoImplicit false

namespace Slipway.Catalog

/-- The options of a Kafka broker. -/
structure Kafka where
  jvmImage : Bool
  tag : String
  clusterId : String
  brokerId : Int
  internalTopicReplication : Int
  startupTimeout : Option Binary64
deriving DecidableEq, Repr

namespace Kafka

open Validation (optional string boolean integer integerFrom nullable number)

/-- The port of the broker. -/
def port : Port := .tcp 9092

/-- The script that the container waits for. -/
def startScript : String := "/opt/kafka/testcontainers_start.sh"

/-- A check of options. -/
def check : Validation.Check Kafka :=
  Validation.record "Kafka" fun fields =>
    (fun jvmImage tag clusterId brokerId internalTopicReplication startupTimeout =>
        { jvmImage, tag, clusterId, brokerId, internalTopicReplication, startupTimeout })
      <$> optional "jvm_image" false boolean fields
      <*> optional "tag" "latest" string fields
      <*> optional "cluster_id" "5L6g3nShT-eMCtK--X86sw" string fields
      <*> optional "broker_id" 1 integer fields
      <*> optional "internal_topic_rf" 1 (integerFrom 1) fields
      <*> optional "startup_timeout" none (nullable number) fields

/-- The options as a record. -/
def dump (k : Kafka) : Datum :=
  .record [("jvm_image", .bool k.jvmImage), ("tag", .text k.tag), ("cluster_id", .text k.clusterId),
    ("broker_id", .int k.brokerId), ("internal_topic_rf", .int k.internalTopicReplication),
    ("startup_timeout", Datum.ofOption .float k.startupTimeout)]

/-- Whether the numbers among the options can be written into the environment. -/
def isWritable (k : Kafka) : Bool :=
  Text.Integer.isWritable k.brokerId && Text.Integer.isWritable k.internalTopicReplication

/-- The image: the native one, or the one on a virtual machine. -/
def image (k : Kafka) : String := if k.jvmImage then "apache/kafka" else "apache/kafka-native"

/-- The environment of the broker. -/
def env (k : Kafka) : List (String × String) :=
  [("KAFKA_LISTENERS", "PLAINTEXT://0.0.0.0:9092,BROKER://0.0.0.0:9093,CONTROLLER://0.0.0.0:9094"),
   ("CLUSTER_ID", k.clusterId),
   ("KAFKA_PROCESS_ROLES", "broker,controller"),
   ("KAFKA_CONTROLLER_LISTENER_NAMES", "CONTROLLER"),
   ("KAFKA_LISTENER_SECURITY_PROTOCOL_MAP",
    "BROKER:PLAINTEXT,PLAINTEXT:PLAINTEXT,CONTROLLER:PLAINTEXT"),
   ("KAFKA_INTER_BROKER_LISTENER_NAME", "BROKER"),
   ("KAFKA_ADVERTISED_LISTENERS", "PLAINTEXT://localhost:9092,BROKER://localhost:9093"),
   ("KAFKA_BROKER_ID", toString k.brokerId),
   ("KAFKA_OFFSETS_TOPIC_REPLICATION_FACTOR", toString k.internalTopicReplication),
   ("KAFKA_CONTROLLER_QUORUM_VOTERS", toString k.brokerId ++ "@localhost:9094")]

/-- The start script for a started container. -/
def renderStartScript (c : Container) : Except Fault String :=
  (c.resolve port).map fun n =>
    "#!/usr/bin/env bash\nexport KAFKA_ADVERTISED_LISTENERS=PLAINTEXT://" ++ c.host ++ ":"
      ++ toString n ++ ",BROKER://localhost:9093\n/etc/kafka/docker/run\n"

/-- The command that writes the start script and waits until the log says that the broker runs. -/
def writeStartScript : Factory := fun c =>
  (Rendering.renderCommand c startScript (fun c => (renderStartScript c).map .text) "755").map
    fun write => [.command { write with readiness := [.onStdout "Kafka Server started"] }]

/-- The spec of the broker. -/
def spec (k : Kafka) : Checked Spec :=
  withTimeout
    { Spec.ofImage k.image k.tag with
      entrypoint := some "bash"
      cmd := (Rendering.waitForFileCommand startScript startScript "bash" "0.1").drop 1
      env := k.env
      exposedPorts := [port]
      execAfterStart := [.factory writeStartScript] }
    k.startupTimeout

end Kafka
end Slipway.Catalog
