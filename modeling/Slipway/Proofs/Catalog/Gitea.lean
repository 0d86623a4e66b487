import Mathlib.Data.List.Forall2
import Slipway.Catalog.Gitea
import Slipway.Proofs.Catalog.Dex

/-!
# `Slipway.Proofs.Catalog.Gitea`: how a Gitea server is set up

Once a server answers, its setup is a list of commands, each of which has to exit with zero.
`SetsUp` says what the options of the server mean for that list. The calls of the API carry JSON in
their arguments; what they carry is ASCII and is read back as the key or the repository that the
options name (`posts_apiCurl`).

`spec_sets_up_in_order` states that the spec has these commands after the container is ready, and
what a lifecycle makes of them: it runs them up to the first that does not exit with zero
(`run_refused`). -/

set_option autoImplicit false

namespace Slipway.Catalog.Gitea

open Slipway.World (Act Stage)

/-! ### Calls of the API -/

/-- A command posts to an address of the API as the administrator. Its body is ASCII, and is read as
a JSON value that fits. -/
def Posts (g : Gitea) (address : String) (Fits : Json → Prop) (argv : List String) : Prop :=
  ∃ text v, argv = ["curl", "-sfk", "-X", "POST", "-H", "accept: application/json", "-H",
      "Content-Type: application/json", "-u", g.adminUsername ++ ":" ++ g.adminPassword,
      "-d", text, "http://localhost:3000/api/v1/" ++ address] ∧
    Json.IsAscii text.toList ∧ Json.ofString? text = some v ∧ Fits v

/-- A value gives a key as it is. -/
structure IsKey (key : String) (v : Json) : Prop where
  object : v.IsDistinct
  key : v.get? "key" = some (.text key)

/-- A value gives the name of a repository as it is, and whether only members may see it. -/
structure IsRepo (r : GiteaRepo) (v : Json) : Prop where
  object : v.IsDistinct
  name : v.get? "name" = some (.text r.name)
  visibility : v.get? "private" = some (.bool (decide (r.visibility = .members)))

/-- The body of a request for a key is the JSON of that key. -/
theorem keyBody_isKey (key : String) : IsKey key (keyBody key) :=
  ⟨⟨_, rfl, by simp⟩, rfl⟩

/-- The body of a request for a repository is the JSON of that repository. -/
theorem repoBody_isRepo (r : GiteaRepo) : IsRepo r (repoBody r) := by
  refine ⟨⟨_, rfl, by simp⟩, rfl, ?_⟩
  cases hvisibility : r.visibility <;> simp [repoBody, Json.get?, hvisibility]

/-- A call with a value as its body posts that value, unless it has floating-point numbers. -/
theorem posts_apiCurl (g : Gitea) {path address : String} {v : Json} {Fits : Json → Prop}
    (hpath : String.ofList (path.toList.dropWhile (· == '/')) = address) (hexact : v.IsExact)
    (hfits : Fits v) : g.Posts address Fits (g.apiCurl "POST" path (some v)) := by
  refine ⟨v.render Json.spaced, v, ?_, ?_, Json.ofString?_render Json.spaced_isProper hexact, hfits⟩
  · rw [apiCurl, hpath]
    rfl
  · rw [Json.render, String.toList_ofList]
    exact Json.isAscii_print_spaced hexact

/-! ### The commands of the setup -/

/-- The keys to register: that of the administrator, unless it is missing or empty. -/
def keys (g : Gitea) : List String := g.adminKey.toList.filter (· ≠ "")

/-- Commands set a server up: they create the administrator, register the key, create the
repositories and then administer as asked, each of these in order. -/
structure SetsUp (g : Gitea) (commands : List (List String)) : Prop where
  parts : ∃ keyCalls repoCalls,
    commands = ["gitea", "admin", "user", "create", "--username", g.adminUsername, "--password",
        g.adminPassword, "--email", g.adminUsername ++ "@localhost", "--admin"]
      :: (keyCalls ++ repoCalls ++ g.adminCommands.map fun c => "gitea" :: "admin" :: c) ∧
    List.Forall₂ (fun key => g.Posts "user/keys" (IsKey key)) g.keys keyCalls ∧
    List.Forall₂ (fun r => g.Posts "user/repos" (IsRepo r)) g.repos repoCalls

variable {g : Gitea}

/-- The keys are posted one by one, in their order. -/
theorem forall₂_keyCommands (g : Gitea) :
    List.Forall₂ (fun key => g.Posts "user/keys" (IsKey key)) g.keys g.keyCommands := by
  unfold keys keyCommands
  cases g.adminKey with
  | none => exact .nil
  | some key =>
    by_cases hkey : key = ""
    · simp [hkey]
    · simp only [Option.toList_some, hkey, ne_eq, not_false_eq_true, decide_true,
        List.filter_cons_of_pos,
        List.filter_nil, if_false]
      refine .cons (posts_apiCurl g (by decide) ?_ (keyBody_isKey key)) .nil
      simp [keyBody]

/-- The repositories are posted one by one, in their order. -/
theorem forall₂_repoCommands (g : Gitea) :
    List.Forall₂ (fun r => g.Posts "user/repos" (IsRepo r)) g.repos
      (g.repos.map fun r => g.apiCurl "POST" "/user/repos" (some (repoBody r))) := by
  induction g.repos with
  | nil => exact .nil
  | cons r rest ih =>
    refine .cons (posts_apiCurl g (by decide) ?_ (repoBody_isRepo r)) ih
    simp [repoBody]

/-- The commands are those that set the server up, in their order. -/
theorem setupCommands_setsUp (g : Gitea) : g.SetsUp g.setupCommands where
  parts :=
    ⟨_, _, by simp [setupCommands, createAdmin], g.forall₂_keyCommands, g.forall₂_repoCommands⟩

/-- The spec runs its commands after the start, and nothing before. -/
theorem spec_eq_valid {s : Spec} (h : g.spec = .valid s) :
    s.execBeforeReady = [] ∧ s.execAfterStart = Injection.checkedSources g.setupCommands := by
  obtain ⟨-, rfl⟩ := withTimeout_eq_valid.mp h
  exact ⟨rfl, rfl⟩

/-! ### The main result -/

/-- The spec of a server sets it up in order, with commands that have to exit with zero. A lifecycle
in which one of them does not runs the commands up to the first such, each once, and ends with its
failure. -/
theorem spec_sets_up_in_order (g : Gitea) :
    ((∃ s, g.spec = .valid s) ↔ ∀ x, g.startupTimeout = some x → x.IsPositive) ∧
    ∀ s, g.spec = .valid s → g.SetsUp g.setupCommands ∧
      s.execAfterStart = g.setupCommands.map (fun argv => .step (.command (.checked argv))) ∧
      ∀ (settings : Settings) (timeout : Option Binary64) (ordinal : Nat) (world : World)
        (box : World.Box) (now : Int) (k : Nat) (r : ExecResult),
        .postStartExec ∈
          (Lifecycle.run settings s timeout ordinal (.ready world box now)).2.history →
        box.Refuses g.setupCommands k r →
        (Lifecycle.run settings s timeout ordinal (.ready world box now)).2.trace.commands =
            g.setupCommands.take (k + 1) ∧
          ∃ argv, g.setupCommands[k]? = some argv ∧
            Lifecycle.EndsFailed settings box (Act.idOf box s ordinal)
              (.execFailed argv r.exitCode r.stdout r.stderr none)
              [.created, .started, .evaluating, .postStartExec]
              (Lifecycle.run settings s timeout ordinal (.ready world box now)) := by
  constructor
  · exact exists_withTimeout_iff
  · intro s hs
    obtain ⟨hbefore, hafter⟩ := spec_eq_valid hs
    refine ⟨g.setupCommands_setsUp, hafter, ?_⟩
    intro settings timeout ordinal world box now k r hreached hrefuses
    -- All commands have to exit with zero, so that the first that does not is the last.
    exact Lifecycle.run_refused hbefore hafter hreached hrefuses

/-- A server with two repositories. -/
def trial : Gitea where
  hostname := "localhost"
  adminUsername := "root"
  adminPassword := "secret"
  adminKey := some "ssh-ed25519 AAAA \"me\""
  repos := [⟨"docs", .everyone⟩, ⟨"naïve", .members⟩]
  adminCommands := [["regenerate", "hooks"]]
  startupTimeout := none

/-- A box in which the server comes up at once. The second repository cannot be created. -/
def clashing : World.Box :=
  { World.Box.quiet with
    logs := [⟨0, .stdout, Text.Utf8.ofString "Starting new Web server: tcp:0.0.0.0:3000\n"⟩]
    execs := [.exiting (trial.apiCurl "POST" "/user/repos" (some (repoBody ⟨"naïve", .members⟩)))
      22 0 none] }

/-- A world in which the server answers. -/
def answering : World :=
  { World.quiet with http := [("http://localhost:40001/api/swagger", [⟨0, .answer 200 "" 0⟩])] }

/-- The fourth command is refused in the box, and those before it are not. -/
theorem clashing_refuses : clashing.Refuses trial.setupCommands 3 ⟨some 22, [], []⟩ where
  refused := by decide +kernel
  code := by decide
  before := by
    -- The commands before it are not in the script of the box, so they exit with zero.
    have hgood : (clashing.answers trial.setupCommands).take 3 =
        List.replicate 3 (.ok ⟨some 0, [], []⟩) := by decide +kernel
    intro j hj
    have hj' := congrArg (fun answers => answers[j]?) hgood
    simp only [List.getElem?_take_of_lt hj, List.getElem?_replicate_of_lt hj] at hj'
    exact ⟨_, hj', rfl⟩

/-- The spec of the trial server. -/
def trialSpec : Spec := trial.spec.value?.getD default

/-- Whether the conditions of the trial server are all met in a box, each on its own. -/
def meetsAll (box : World.Box) : Bool :=
  match Lifecycle.prepared .usual trialSpec none 1 (.ready answering box 0) with
  | (.ok p, t) => (Readiness.waits ⟨p.1, t.box, t.world, .usual⟩ trialSpec.waitFor).all fun m =>
    (m (p.2.child t.now) t.now).fault.isNone
  | _ => false

/-- A lifecycle whose conditions are all met comes to its commands. -/
theorem postStart_reached {box : World.Box} (h : meetsAll box = true) :
    .postStartExec ∈ (Lifecycle.run .usual trialSpec none 1
      (.ready answering box 0)).2.history := by
  have hsome : trialSpec.execAfterStart ≠ [] := List.cons_ne_nil _ _
  refine (Lifecycle.postStartExec_mem_history_iff rfl rfl).mpr ⟨hsome, ?_⟩
  unfold meetsAll at h
  split at h
  · rename_i p t hprepared
    obtain ⟨u, hevaluated⟩ := Lifecycle.evaluated_of_members rfl hprepared fun m hm =>
      Option.isNone_iff_eq_none.mp (List.all_eq_true.mp h m hm)
    exact ⟨p, u, hevaluated⟩
  · cases h

/-- Of the trial the first four commands are run, and the fourth is the failure. -/
theorem spec_sets_up_in_order_of_trial :
    trial.spec = .valid trialSpec ∧ trial.SetsUp trial.setupCommands ∧
      (Lifecycle.run .usual trialSpec none 1 (.ready answering clashing 0)).2.trace.commands =
        trial.setupCommands.take 4 ∧
      ∃ argv, trial.setupCommands[3]? = some argv ∧
        Lifecycle.EndsFailed .usual clashing "gitea/gitea:1.22.3-rootless#1"
          (.execFailed argv (some 22) [] [] none) [.created, .started, .evaluating, .postStartExec]
          (Lifecycle.run .usual trialSpec none 1 (.ready answering clashing 0)) := by
  have hspec : trial.spec = .valid trialSpec := rfl
  obtain ⟨hsetsUp, -, hrun⟩ := (spec_sets_up_in_order trial).2 trialSpec hspec
  have hreached := postStart_reached (show meetsAll clashing = true by decide +kernel)
  exact ⟨hspec, hsetsUp, hrun .usual none 1 answering clashing 0 3 _ hreached clashing_refuses⟩

/-- The same box, in which an interrupt comes while a container is removed. -/
def interrupting : World.Box := { clashing with removeFault := some (.interrupt "stop") }

/-- The failure is not always the outcome: an interrupt that comes from the removal takes its place.
-/
theorem refusal_interrupted :
    trial.spec = .valid trialSpec ∧ interrupting.Refuses trial.setupCommands 3 ⟨some 22, [], []⟩ ∧
      .postStartExec ∈
        (Lifecycle.run .usual trialSpec none 1 (.ready answering interrupting 0)).2.history ∧
      (Lifecycle.run .usual trialSpec none 1 (.ready answering interrupting 0)).1 =
        .error (.interrupt "stop") := by
  have hspec : trial.spec = .valid trialSpec := rfl
  obtain ⟨hbefore, hafter⟩ := spec_eq_valid hspec
  have hrefuses : interrupting.Refuses trial.setupCommands 3 ⟨some 22, [], []⟩ :=
    clashing_refuses.congr rfl
  have hreached := postStart_reached (show meetsAll interrupting = true by decide +kernel)
  obtain ⟨-, argv, -, hends⟩ := Lifecycle.run_refused hbefore hafter hreached hrefuses
  -- The container is removed at the end, and there the interrupt comes in.
  exact ⟨hspec, hrefuses, hreached, hends.interrupted rfl (by decide) _ ⟨rfl, rfl⟩⟩

end Slipway.Catalog.Gitea
