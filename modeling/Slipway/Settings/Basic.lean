import Slipway.Dump
import Slipway.Validation.Record

/-!
# `Slipway.Settings.Basic`: what can be set for a run

Each setting has a name, by which it is given, and a default.
-/

set_option autoImplicit false

namespace Slipway

/-- The settings of a run. Times are in seconds. -/
structure Settings where
  /-- The file that holds the plan. -/
  specFile : String
  /-- The address of a remote engine. -/
  dockerBaseUrl : Option String
  /-- The host at which published ports are reachable, if it is not that of the engine. -/
  hostOverride : Option String
  startupTimeout : Binary64
  httpPollInterval : Binary64
  httpRequestTimeout : Binary64
  healthPollInterval : Binary64
  removeOnFailure : Bool
  pullMissingImages : Bool
  logLevel : String
deriving DecidableEq, Repr

namespace Settings

/-- A tenth of a second, and other numbers of seconds. -/
def tenth : Binary64 := .ofDecimal false 1 (-1)
def secondsOf (n : Nat) : Binary64 := .ofNat n

/-- The settings of which nothing is said. -/
def usual : Settings where
  specFile := "service.yaml"
  dockerBaseUrl := none
  hostOverride := none
  startupTimeout := secondsOf 60
  httpPollInterval := tenth
  httpRequestTimeout := secondsOf 2
  healthPollInterval := tenth
  removeOnFailure := true
  pullMissingImages := true
  logLevel := "INFO"

instance : Inhabited Settings := ⟨usual⟩

/-- The names of the settings, in the order of their declaration. -/
def names : List String :=
  ["SPEC_FILE", "DOCKER_BASE_URL", "HOST_OVERRIDE", "STARTUP_TIMEOUT", "HTTP_POLL_INTERVAL",
   "HTTP_REQUEST_TIMEOUT", "HEALTH_POLL_INTERVAL", "REMOVE_ON_FAILURE", "PULL_MISSING_IMAGES",
   "LOG_LEVEL"]

open Validation in
/-- A check of settings given by name. -/
def checkFields (fields : Fields) : Checked Settings :=
  (fun specFile dockerBaseUrl hostOverride startupTimeout httpPollInterval httpRequestTimeout
      healthPollInterval removeOnFailure pullMissingImages logLevel =>
      { specFile, dockerBaseUrl, hostOverride, startupTimeout, httpPollInterval,
        httpRequestTimeout, healthPollInterval, removeOnFailure, pullMissingImages, logLevel })
    <$> optional "SPEC_FILE" usual.specFile path fields
    <*> optional "DOCKER_BASE_URL" usual.dockerBaseUrl (nullable string) fields
    <*> optional "HOST_OVERRIDE" usual.hostOverride (nullable string) fields
    <*> optional "STARTUP_TIMEOUT" usual.startupTimeout number fields
    <*> optional "HTTP_POLL_INTERVAL" usual.httpPollInterval number fields
    <*> optional "HTTP_REQUEST_TIMEOUT" usual.httpRequestTimeout number fields
    <*> optional "HEALTH_POLL_INTERVAL" usual.healthPollInterval number fields
    <*> optional "REMOVE_ON_FAILURE" usual.removeOnFailure boolean fields
    <*> optional "PULL_MISSING_IMAGES" usual.pullMissingImages boolean fields
    <*> optional "LOG_LEVEL" usual.logLevel string fields

/-- The settings that some fields give. -/
def ofFields (fields : Validation.Fields) : Except Fault Settings :=
  (checkFields fields).get "AppSettings"

/-- The settings as a record. -/
def dump (s : Settings) : Datum :=
  .record
    [("SPEC_FILE", .text s.specFile), ("DOCKER_BASE_URL", Datum.ofOption .text s.dockerBaseUrl),
    ("HOST_OVERRIDE", Datum.ofOption .text s.hostOverride),
    ("STARTUP_TIMEOUT", .float s.startupTimeout), ("HTTP_POLL_INTERVAL", .float s.httpPollInterval),
    ("HTTP_REQUEST_TIMEOUT", .float s.httpRequestTimeout),
    ("HEALTH_POLL_INTERVAL", .float s.healthPollInterval),
    ("REMOVE_ON_FAILURE", .bool s.removeOnFailure),
    ("PULL_MISSING_IMAGES", .bool s.pullMissingImages), ("LOG_LEVEL", .text s.logLevel)]

end Settings
end Slipway
