import Slipway.Catalog.Redis
import Slipway.Json.Printer
import Slipway.Rendering

/-!
# `Slipway.Catalog.Dex`: a Dex OpenID Connect provider

Dex has to be told the address at which clients reach it. So the container starts as a loop that
waits for its configuration, which is copied in once the host port is known.
-/

set_option autoImplicit false

namespace Slipway.Catalog

open Validation (required requiredAs optional optionalAs string list boolean nullable number)

/-- A client application known to Dex. -/
structure DexClient where
  id : String
  name : String
  redirectUris : List String
  secret : String
deriving DecidableEq, Repr

namespace DexClient

/-- A check of a client. -/
def check : Validation.Check DexClient :=
  Validation.record "DexClient" fun fields =>
    (fun id name redirectUris secret => { id, name, redirectUris, secret })
      <$> required "id" string fields
      <*> required "name" string fields
      <*> requiredAs "redirectURIs" "redirect_uris" (list string) fields
      <*> required "secret" string fields

/-- A client for trials. -/
def simple : DexClient := ⟨"client", "Client", ["http://localhost/oidc-callback"], "secret"⟩

/-- The client as a record. -/
def dump (c : DexClient) : Datum :=
  .record [("id", .text c.id), ("name", .text c.name),
    ("redirect_uris", Datum.ofList .text c.redirectUris), ("secret", .text c.secret)]

/-- The client in the configuration. -/
def toJson (c : DexClient) : Json :=
  .object [("id", .text c.id), ("name", .text c.name),
    ("redirectURIs", .list (c.redirectUris.map .text)), ("secret", .text c.secret)]

end DexClient

/-- A user with a password, of which the hash is kept. -/
structure DexUser where
  email : String
  hash : String
  username : String
  userId : String
deriving DecidableEq, Repr

namespace DexUser

/-- A check of a user. -/
def check : Validation.Check DexUser :=
  Validation.record "DexUser" fun fields =>
    (fun email hash username userId => { email, hash, username, userId })
      <$> required "email" string fields
      <*> required "hash" string fields
      <*> required "username" string fields
      <*> requiredAs "userID" "user_id" string fields

/-- A user for trials, whose password is `user`. -/
def simple : DexUser where
  email := "user@example.org"
  hash := "$2y$10$l.yOBo5a8m1TnfVuvj/gX.y3vvnHiQs0G59rEwIVU2blgcqkUDLjS"
  username := "User"
  userId := "user"

/-- The user as a record. -/
def dump (u : DexUser) : Datum :=
  .record [("email", .text u.email), ("hash", .text u.hash), ("username", .text u.username),
    ("user_id", .text u.userId)]

/-- The user in the configuration. -/
def toJson (u : DexUser) : Json :=
  .object [("email", .text u.email), ("hash", .text u.hash), ("username", .text u.username),
    ("userID", .text u.userId)]

end DexUser

/-- The configuration of Dex as data: what is needed of it for a trial instance. -/
structure DexConfig where
  issuer : String
  storage : List (Datum × Datum)
  web : List (Datum × Datum)
  staticClients : List DexClient
  enablePasswordDb : Bool
  staticPasswords : List DexUser
  oauth2 : Option (List (Datum × Datum))

namespace DexConfig

/-- Where Dex keeps its data. -/
def storageFile : String := "/etc/dex/dex.db"

/-- The address at which Dex listens. -/
def listenAddress : String := ":5556"

/-- A check of a configuration. -/
def check : Validation.Check DexConfig :=
  Validation.record "DexConfig" fun fields =>
    (fun issuer storage web staticClients enablePasswordDb staticPasswords oauth2 =>
        { issuer, storage, web, staticClients, enablePasswordDb, staticPasswords, oauth2 })
      <$> required "issuer" string fields
      <*> optional "storage"
        [(.text "type", .text "sqlite3"),
          (.text "config", .record [("file", .text storageFile)])] Validation.anyMapping fields
      <*> optional "web" [(.text "http", .text listenAddress)] Validation.anyMapping fields
      <*> optionalAs "staticClients" "static_clients" [] (list DexClient.check) fields
      <*> optionalAs "enablePasswordDB" "enable_password_db" true boolean fields
      <*> optionalAs "staticPasswords" "static_passwords" [] (list DexUser.check) fields
      <*> optional "oauth2" none (nullable Validation.anyMapping) fields

/-- The configuration as a record. -/
def dump (c : DexConfig) : Datum :=
  .record [("issuer", .text c.issuer), ("storage", .mapping c.storage), ("web", .mapping c.web),
    ("static_clients", Datum.ofList DexClient.dump c.staticClients),
    ("enable_password_db", .bool c.enablePasswordDb),
    ("static_passwords", Datum.ofList DexUser.dump c.staticPasswords),
    ("oauth2", Datum.ofOption .mapping c.oauth2)]

end DexConfig

/-- The options of a Dex provider. -/
structure Dex where
  tag : String
  clients : List DexClient
  users : List DexUser
  allowPasswordGrants : Bool
  startupTimeout : Option Binary64
deriving DecidableEq, Repr

namespace Dex

/-- The port of the provider. -/
def port : Port := .tcp 5556

/-- The file that the container waits for. -/
def configFile : String := "/etc/dex/config.docker.json"

/-- A check of options. -/
def check : Validation.Check Dex :=
  Validation.record "Dex" fun fields =>
    (fun tag clients users allowPasswordGrants startupTimeout =>
        { tag, clients, users, allowPasswordGrants, startupTimeout })
      <$> optional "tag" "v2.41.1" string fields
      <*> optional "clients" [] (list DexClient.check) fields
      <*> optional "users" [] (list DexUser.check) fields
      <*> optional "allow_password_grants" false boolean fields
      <*> optional "startup_timeout" none (nullable number) fields

/-- The options as a record. -/
def dump (d : Dex) : Datum :=
  .record [("tag", .text d.tag), ("clients", Datum.ofList DexClient.dump d.clients),
    ("users", Datum.ofList DexUser.dump d.users),
    ("allow_password_grants", .bool d.allowPasswordGrants),
    ("startup_timeout", Datum.ofOption .float d.startupTimeout)]

/-- The address of the provider, by which it is known to clients. -/
def issuer (c : Container) : Except Fault String :=
  (c.resolve port).map fun n => "http://" ++ c.host ++ ":" ++ toString n

/-- The configuration of the provider, given its address. -/
def config (d : Dex) (issuer : String) : Json :=
  .object ([("issuer", .text issuer),
    ("storage", .object [("type", .text "sqlite3"),
      ("config", .object [("file", .text DexConfig.storageFile)])]),
    ("web", .object [("http", .text DexConfig.listenAddress)]),
    ("staticClients", .list (d.clients.map DexClient.toJson)),
    ("enablePasswordDB", .bool true),
    ("staticPasswords", .list (d.users.map DexUser.toJson))]
    ++ (if d.allowPasswordGrants then
      [("oauth2", .object [("passwordConnector", .text "local")])] else []))

/-- The configuration for a started container, as text. -/
def renderConfig (d : Dex) (c : Container) : Except Fault String :=
  (issuer c).map fun address => (d.config address).render Json.compact

/-- The spec of the provider. -/
def spec (d : Dex) : Checked Spec :=
  withTimeout
    { Spec.ofImage "dexidp/dex" d.tag with
      cmd := Rendering.waitForFileCommand configFile ("dex serve " ++ configFile) "/bin/sh" "1"
      exposedPorts := [port]
      waitFor := [.http (.get "/.well-known/openid-configuration" port)]
      execBeforeReady := [.factory (Rendering.materializer configFile
        (fun c => (d.renderConfig c).map .text) Payload.defaultMode)] }
    d.startupTimeout

end Dex
end Slipway.Catalog
