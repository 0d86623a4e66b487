import Slipway.Archive
import Slipway.Spec

/-!
# `Slipway.Engine.Request`: what the engine is asked for

Images and containers are looked up, made and removed by requests. A container to be made is
described in the engine's own terms: its ports are published at free ports of the host, and the
times of its health check are whole nanoseconds.
-/

set_option autoImplicit false

namespace Slipway.Engine

/-- How the engine is to check a container's health. Times are in nanoseconds. -/
structure Checkup where
  test : List String
  interval : Int
  timeout : Int
  retries : Int
  startPeriod : Int
deriving DecidableEq, Repr

/-- Seconds as whole nanoseconds, with the fraction cut off. -/
def nanoseconds (seconds : Binary64) : Except Fault Int :=
  match seconds.mul (Binary64.ofNat 1000000000) with
  | .finite s m e => .ok (Binary64.integerPart s m e)
  | .infinite _ => .error (.defect .infiniteInteger)
  | .nan => .error (.defect .nanInteger)

/-- The check of a healthcheck. Its test is a command and its arguments. -/
def Checkup.ofHealthcheck (h : Healthcheck) : Except Fault Checkup := do
  let interval ← nanoseconds h.interval
  let timeout ← nanoseconds h.timeout
  let startPeriod ← nanoseconds h.startPeriod
  return ⟨"CMD" :: h.test, interval, timeout, h.retries, startPeriod⟩

/-- The container that the engine is to make. -/
structure Creation where
  imageRef : String
  command : Option (List String)
  entrypoint : Option String
  environment : List (String × String)
  labels : List (String × String)
  name : Option String
  /-- The keys of the ports to publish. -/
  ports : List String
  mounts : List Mount
  checkup : Option Checkup
deriving DecidableEq, Repr

/-- The container of a spec. No command means that of the image. -/
def Creation.ofSpec (s : Spec) (checkup : Option Checkup) : Creation where
  imageRef := s.imageRef
  command := if s.cmd.isEmpty then none else some s.cmd
  entrypoint := s.entrypoint
  environment := s.env
  labels := s.labels
  name := s.name
  ports := s.exposedPorts.map Port.key
  mounts := s.mounts
  checkup := checkup

/-- A request. Those without an id are about the container that was looked up or made last. -/
inductive Request where
  | findImage (imageRef : String)
  | pullImage (image tag : String)
  | createContainer (c : Creation)
  | findContainer (id : String)
  | start
  | stop
  /-- Removes the container with its volumes, even if it runs. -/
  | remove
  /-- Brings what is known of the container up to date. -/
  | reload
  /-- Reads what some streams hold. -/
  | readLogs (stdout stderr : Bool)
  /-- Reads streams as they grow, from a moment on if one is given. -/
  | followLogs (stdout stderr : Bool) (since : Option Calendar.Timestamp)
  | exec (argv : List String) (user : String) (workdir : Option String)
  | putArchive (directory : String) (file : Archive.File)
deriving DecidableEq, Repr

/-- The kinds of requests. -/
inductive Operation where
  | findImage
  | pullImage
  | createContainer
  | findContainer
  | start
  | stop
  | remove
  | reload
  | logs
  | exec
  | putArchive
deriving DecidableEq, Repr, Inhabited

/-- The kind of a request. Both ways to read logs are of one kind. -/
def Request.operation : Request → Operation
  | findImage _ => .findImage
  | pullImage _ _ => .pullImage
  | createContainer _ => .createContainer
  | findContainer _ => .findContainer
  | start => .start
  | stop => .stop
  | remove => .remove
  | reload => .reload
  | readLogs _ _ => .logs
  | followLogs _ _ _ => .logs
  | exec _ _ _ => .exec
  | putArchive _ _ => .putArchive

end Slipway.Engine
