import Slipway.Command
import Slipway.Container

/-!
# `Slipway.Spec`: the description of a container

A spec says which image to run and how, when the container counts as ready, and what to do before
and after that. A source of steps is a step, or a factory that makes steps once the container is
known, so a step that needs a host port can never be built before there is one.
-/

set_option autoImplicit false

namespace Slipway

/-- A maker of steps for a started container. -/
abbrev Factory := Container → Except Fault (List Step)

/-- A source of steps. -/
inductive Source where
  | step (s : Step)
  | factory (make : Factory)

namespace Source

instance : Inhabited Source := ⟨.step default⟩

/-- The steps of a source for a started container. -/
def expand (c : Container) : Source → Except Fault (List Step)
  | step s => .ok [s]
  | factory make => make c

/-- The steps of several sources, in order. -/
def expandAll (c : Container) : List Source → Except Fault (List Step)
  | [] => .ok []
  | s :: rest =>
    match s.expand c with
    | .error e => .error e
    | .ok steps => (expandAll c rest).map (steps ++ ·)

end Source

/-- Where a mount comes from. -/
inductive MountKind where
  | bind
  | volume
  | tmpfs
deriving DecidableEq, Repr, Inhabited

namespace MountKind

/-- The kinds in the order in which messages list them. -/
def all : List MountKind := [bind, volume, tmpfs]

/-- The name of a kind. -/
def name : MountKind → String
  | bind => "bind"
  | volume => "volume"
  | tmpfs => "tmpfs"

/-- The kind with a name. -/
def ofName? (s : String) : Option MountKind := all.find? (·.name == s)

end MountKind

/-- A file system mounted into a container. All but memory file systems need a source. -/
structure Mount where
  kind : MountKind
  target : String
  source : Option String
  readOnly : Bool
deriving DecidableEq, Repr

namespace Mount

/-- A file system in memory. -/
def memory (target : String) : Mount := ⟨.tmpfs, target, none, false⟩

end Mount

/-- How the container engine checks a container's health. -/
structure Healthcheck where
  test : List String
  interval : Binary64
  timeout : Binary64
  retries : Int
  startPeriod : Binary64
deriving DecidableEq, Repr

/-- The description of a container. -/
structure Spec where
  image : String
  tag : String
  name : Option String
  entrypoint : Option String
  cmd : List String
  env : List (String × String)
  labels : List (String × String)
  exposedPorts : List Port
  copyTo : List Payload
  mounts : List Mount
  healthcheck : Option Healthcheck
  waitFor : List Condition
  execBeforeReady : List Source
  execAfterStart : List Source
  startupTimeout : Option Binary64

namespace Spec

/-- The tag of an image that none is said of. -/
def defaultTag : String := "latest"

/-- A spec of an image and nothing else. -/
def ofImage (image tag : String) : Spec where
  image := image
  tag := tag
  name := none
  entrypoint := none
  cmd := []
  env := []
  labels := []
  exposedPorts := []
  copyTo := []
  mounts := []
  healthcheck := none
  waitFor := []
  execBeforeReady := []
  execAfterStart := []
  startupTimeout := none

instance : Inhabited Spec := ⟨ofImage "" defaultTag⟩

/-- The image reference: image and tag. -/
def imageRef (s : Spec) : String := s.image ++ ":" ++ s.tag

/-- An image reference cut at its last colon, unless a slash follows it: such a colon belongs to the
address of a registry. -/
def splitReference? (reference : List Char) : Option (List Char × List Char) :=
  let tag := (reference.reverse.takeWhile (· != ':')).reverse
  if tag.length = reference.length || tag.contains '/' then none
  else some (reference.take (reference.length - tag.length - 1), tag)

/-- Whether two optional numbers are the same as numbers. -/
def sameNumber : Option Binary64 → Option Binary64 → Bool
  | none, none => true
  | some a, some b => a.eqv b
  | _, _ => false

/-- Whether two healthchecks are the same. -/
def sameHealthcheck : Option Healthcheck → Option Healthcheck → Bool
  | none, none => true
  | some a, some b =>
    a.test == b.test && a.interval.eqv b.interval && a.timeout.eqv b.timeout
      && a.retries == b.retries && a.startPeriod.eqv b.startPeriod
  | _, _ => false

/-- Whether two commands are the same. -/
def sameCommand (a b : Command) : Bool :=
  a.argv == b.argv && a.completion == b.completion && Condition.sameAll a.readiness b.readiness
    && a.user == b.user && a.workdir == b.workdir && a.description == b.description

/-- Whether two sources are the same. A factory is the same as none that was made apart from it. -/
def sameSource : Source → Source → Bool
  | .step (.command a), .step (.command b) => sameCommand a b
  | .step (.copy a), .step (.copy b) => a == b
  | _, _ => false

/-- Whether two lists of sources are the same. -/
def sameSources : List Source → List Source → Bool
  | [], [] => true
  | a :: as, b :: bs => sameSource a b && sameSources as bs
  | _, _ => false

/-- Whether two tables have the same entries, in any order. -/
def sameTable (a b : List (String × String)) : Bool :=
  a.length == b.length && a.all fun e => b.lookup e.1 == some e.2

/-- Whether two specs made apart from each other describe the same container. -/
def same (a b : Spec) : Bool :=
  a.image == b.image && a.tag == b.tag && a.name == b.name && a.entrypoint == b.entrypoint
    && a.cmd == b.cmd && sameTable a.env b.env && sameTable a.labels b.labels
    && a.exposedPorts == b.exposedPorts && a.copyTo == b.copyTo && a.mounts == b.mounts
    && sameHealthcheck a.healthcheck b.healthcheck && Condition.sameAll a.waitFor b.waitFor
    && sameSources a.execBeforeReady b.execBeforeReady
    && sameSources a.execAfterStart b.execAfterStart
    && sameNumber a.startupTimeout b.startupTimeout

end Spec
end Slipway
