import Slipway.Catalog.Redis
import Slipway.Json.Printer

/-!
# `Slipway.Catalog.Gitea`: a Gitea server with an administrator

The server's settings are copied in before it starts. Once it answers, an administrator is created,
then a key and repositories over the API, then the extra commands run.
-/

set_option autoImplicit false

namespace Slipway.Catalog

open Validation (required optional string list nullable number named)

/-- Who may see a repository. -/
inductive Visibility where
  | everyone
  | members
deriving DecidableEq, Repr, Inhabited

namespace Visibility

/-- The visibilities in the order in which messages list them. -/
def all : List Visibility := [everyone, members]

/-- The name of a visibility. -/
def name : Visibility → String
  | everyone => "public"
  | members => "private"

end Visibility

/-- A repository to create. -/
structure GiteaRepo where
  name : String
  visibility : Visibility
deriving DecidableEq, Repr

namespace GiteaRepo

/-- A check of a repository. -/
def check : Validation.Check GiteaRepo :=
  Validation.record "GiteaRepo" fun fields =>
    (fun name visibility => { name, visibility })
      <$> required "name" string fields
      <*> optional "visibility" .members (named Visibility.all Visibility.name) fields

/-- The repository as a record. -/
def dump (r : GiteaRepo) : Datum :=
  .record [("name", .text r.name), ("visibility", .text r.visibility.name)]

end GiteaRepo

/-- The options of a Gitea server. -/
structure Gitea where
  hostname : String
  adminUsername : String
  adminPassword : String
  adminKey : Option String
  repos : List GiteaRepo
  adminCommands : List (List String)
  startupTimeout : Option Binary64
deriving DecidableEq, Repr

namespace Gitea

/-- The port of the server for secure shells, and that for HTTP. -/
def sshPort : Port := .tcp 2222
def httpPort : Port := .tcp 3000

/-- A check of options. -/
def check : Validation.Check Gitea :=
  Validation.record "Gitea" fun fields =>
    (fun hostname adminUsername adminPassword adminKey repos adminCommands startupTimeout =>
        { hostname, adminUsername, adminPassword, adminKey, repos, adminCommands, startupTimeout })
      <$> optional "git_hostname" "localhost" string fields
      <*> optional "admin_username" "git-admin" string fields
      <*> optional "admin_password" "git-admin" string fields
      <*> optional "admin_key" none (nullable string) fields
      <*> optional "repos" [] (list GiteaRepo.check) fields
      <*> optional "admin_commands" [] (list (list string)) fields
      <*> optional "startup_timeout" none (nullable number) fields

/-- The options as a record. -/
def dump (g : Gitea) : Datum :=
  .record [("git_hostname", .text g.hostname), ("admin_username", .text g.adminUsername),
    ("admin_password", .text g.adminPassword), ("admin_key", Datum.ofOption .text g.adminKey),
    ("repos", Datum.ofList GiteaRepo.dump g.repos),
    ("admin_commands", Datum.ofList (Datum.ofList .text) g.adminCommands),
    ("startup_timeout", Datum.ofOption .float g.startupTimeout)]

/-- The server's settings. -/
def settings (g : Gitea) : String :=
  "APP_NAME = Gitea\nRUN_MODE = prod\n\n"
    ++ "[repository]\nROOT = /var/lib/gitea/git/repos\n\n"
    ++ "[database]\nDB_TYPE = sqlite3\nPATH = /var/lib/gitea/data/gitea.db\n\n"
    ++ "[security]\nINSTALL_LOCK = true\n\n"
    ++ "[service]\nDISABLE_REGISTRATION = true\n\n"
    ++ "[server]\nHTTP_PORT = 3000\nSSH_PORT = 2222\nSSH_LISTEN_PORT = 2222\n"
    ++ "START_SSH_SERVER = true\nAPP_DATA_PATH = /var/lib/gitea/data\n"
    ++ "DOMAIN = " ++ g.hostname ++ "\nSSH_DOMAIN = " ++ g.hostname ++ "\n"
    ++ "ROOT_URL = http://" ++ g.hostname ++ "/\nPROTOCOL = http\n"

/-- The settings as a payload. -/
def settingsFile (g : Gitea) : Payload :=
  ⟨"/etc/gitea/app.ini", Text.Utf8.ofString g.settings, Payload.defaultMode⟩

/-- A command that calls the server's API, with a body if one is given. -/
def apiCurl (g : Gitea) (method path : String) (body : Option Json) : List String :=
  ["curl", "-sfk", "-X", method, "-H", "accept: application/json", "-H",
    "Content-Type: application/json", "-u", g.adminUsername ++ ":" ++ g.adminPassword]
    ++ (match body with
      | some v => ["-d", v.render Json.spaced]
      | none => [])
    ++ ["http://localhost:3000/api/v1/" ++ String.ofList (path.toList.dropWhile (· == '/'))]

/-- The command that creates the administrator. -/
def createAdmin (g : Gitea) : List String :=
  ["gitea", "admin", "user", "create", "--username", g.adminUsername, "--password",
    g.adminPassword, "--email", g.adminUsername ++ "@localhost", "--admin"]

/-- The body of the call that registers a key. -/
def keyBody (key : String) : Json :=
  .object [("title", .text "default"), ("key", .text key), ("read_only", .bool false)]

/-- The body of the call that creates a repository. -/
def repoBody (r : GiteaRepo) : Json :=
  .object [("name", .text r.name), ("readme", .text "Default"), ("auto_init", .bool true),
    ("private", .bool (r.visibility == .members))]

/-- The commands that register the administrator's key: one, unless there is no key. -/
def keyCommands (g : Gitea) : List (List String) :=
  match g.adminKey with
  | some key => if key = "" then [] else [g.apiCurl "POST" "/user/keys" (some (keyBody key))]
  | none => []

/-- The commands that set the server up, in order. -/
def setupCommands (g : Gitea) : List (List String) :=
  [g.createAdmin] ++ g.keyCommands
    ++ g.repos.map (fun r => g.apiCurl "POST" "/user/repos" (some (repoBody r)))
    ++ g.adminCommands.map (fun c => "gitea" :: "admin" :: c)

/-- The spec of the server. -/
def spec (g : Gitea) : Checked Spec :=
  withTimeout
    { Spec.ofImage "gitea/gitea" "1.22.3-rootless" with
      exposedPorts := [sshPort, httpPort]
      copyTo := [g.settingsFile]
      waitFor := [.onStdout "Starting new Web server: tcp:0.0.0.0:3000",
        .http (.get "/api/swagger" httpPort)]
      execAfterStart := g.setupCommands.map fun c => .step (.command (.checked c)) }
    g.startupTimeout

end Gitea
end Slipway.Catalog
