import Slipway.Engine.Address
import Slipway.Text.Blank

/-!
# `Slipway.Engine.Endpoint`: the endpoint that an address names

An engine listens at a port of a host, at a socket or a pipe of the machine, or behind a secure
shell. `parse` reads an address, and refuses one of another kind or form. In a rehearsal nothing
listens anywhere: `connect` says how the attempt to reach an engine fails.
-/

set_option autoImplicit false

namespace Slipway.Engine

/-- Where an engine listens. -/
inductive Endpoint where
  | network (secure : Bool) (url : Url)
  | socket (path : String)
  | pipe
  | shell
deriving DecidableEq, Repr

namespace Endpoint

/-- The socket of an engine on this machine. -/
def usual : Endpoint := .socket "/var/run/docker.sock"

/-- The fault that the engine cannot be used at all. -/
def unusable (text : String) : Fault := .engine .unusable text

/-- Whether a scheme has only letters and plus signs. Others are taken for the name of a host. -/
def isProtocol (scheme : String) : Bool :=
  scheme != "" && scheme.toList.all fun c => c.isAlpha || c == '+'

/-- The URL of an address. One without a protocol is that of a host and port. -/
def urlOf (address : String) : Except Defect Url :=
  match Url.parse address with
  | .error d => .error d
  | .ok url =>
    if isProtocol url.scheme then .ok url
    else (Url.parse ("//" ++ address)).map fun u => { u with scheme := "tcp" }

/-- Whether a URL has more than a protocol, a host and a path. -/
def hasExtras (url : Url) : Bool :=
  !url.query.isEmpty || !url.fragment.isEmpty || !(url.password?.getD []).isEmpty

/-- The endpoint at a port of a host. The port has to be said, and not to be zero. -/
def ofNetwork (address : String) (secure : Bool) (url : Url) : Except Fault Endpoint :=
  if url.authority.isEmpty || hasExtras url then
    .error (unusable ("Invalid bind address format: " ++ address))
  else match url.port with
    | .error d => .error (.defect d)
    | .ok port =>
      if port.getD 0 = 0 then
        .error (unusable ("Invalid bind address format: port is required: " ++ address))
      else .ok (.network secure url)

/-- The endpoint at a socket of the machine. A host counts as the front of the path. -/
def ofSocket (address : String) (url : Url) : Except Fault Endpoint :=
  if hasExtras url then .error (unusable ("Invalid bind address format: " ++ address))
  else .ok (.socket (match url.host? with
    | some h => h ++ "/" ++ String.ofList url.path
    | none => String.ofList url.path))

/-- The endpoint behind a secure shell, which takes no path. -/
def ofShell (address : String) (url : Url) : Except Fault Endpoint :=
  if hasExtras url then .error (unusable ("Invalid bind address format: " ++ address))
  else if url.path.isEmpty then
    match url.port with
    | .error d => .error (.defect d)
    | .ok _ => .ok .shell
  else .error (unusable
    ("Invalid bind address format: no path allowed for this protocol: " ++ address))

/-- The endpoint of an address without blanks around it. -/
def parseTrimmed (address : String) : Except Fault Endpoint :=
  match urlOf address with
  | .error d => .error (.defect d)
  | .ok url =>
    match url.scheme with
    | "fd" => .error (unusable "fd protocol is not implemented")
    | "tcp" => ofNetwork address false url
    | "http" => ofNetwork address false url
    | "https" => ofNetwork address true url
    | "unix" => ofSocket address url
    | "http+unix" => ofSocket address url
    | "npipe" =>
      if hasExtras url then .error (unusable ("Invalid bind address format: " ++ address))
      else .ok .pipe
    | "ssh" => ofShell address url
    | _ => .error (unusable ("Invalid bind address protocol: " ++ address))

/-- The endpoint of an address; that of this machine if the address is empty. -/
def parse (address : String) : Except Fault Endpoint :=
  let trimmed := String.ofList (Text.trim Text.isBlank address.toList)
  if address = "" || trimmed = "unix://" then .ok usual else parseTrimmed trimmed

/-- Why an endpoint at which nothing listens cannot be used. -/
def unreached : Endpoint → String
  | network _ _ => "Error while fetching server API version"
  | socket _ => "Error while fetching server API version: "
      ++ "('Connection aborted.', FileNotFoundError(2, 'No such file or directory'))"
  | pipe => "The npipe:// protocol is only supported on Windows"
  | shell => "Install paramiko package to enable ssh:// support"

end Endpoint

/-- The failure that the engine cannot be reached. -/
def unavailable (text : String) : Fault :=
  .failure (.runtimeUnavailable ("Could not connect to Docker daemon: " ++ text))

/-- How the attempt to reach an engine fails where nothing listens. -/
def Address.connect (a : Address) : Fault :=
  match Endpoint.parse a.text with
  | .ok e => unavailable e.unreached
  | .error (.engine _ text) => unavailable text
  | .error e => e

end Slipway.Engine
