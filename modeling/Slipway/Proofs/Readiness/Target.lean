import Slipway.Proofs.Engine.Publication
import Slipway.Proofs.Text.Url
import Slipway.Proofs.Validation.Condition
import Slipway.Readiness.Http

/-!
# `Slipway.Proofs.Readiness.Target`: what the requests of a wait are sent to

The host of a container is taken from the address at which its engine is reached, and a wait for an
answer over HTTP puts it into a URL of its own. `Leads` says that an address names a host, and
`host_of_leads` that this host, in small letters, is that of every container.

`wait_addresses_iff` says of the URL what others will make of it: its scheme is that of the probe,
its path starts with a slash, and its authority is that of the host and the port of the container,
unless the host is a version 6 address. Such a host stands in brackets where it is taken from, and
without them in the URL. -/

set_option autoImplicit false

namespace Slipway

/-! ### The host of an engine -/

namespace Engine

namespace Address

variable {a : Address} {host : List Char}

/-- Whether the address of an engine is a URL by which it is reached over a network, at a host. -/
def Leads (a : Address) (host : List Char) : Prop :=
  ∃ scheme : List Char, isRemote (String.ofList (scheme.map Char.toLower)) = true ∧
    Url.NamesHost scheme a.text.toList host

/-- The host under which containers are reached: one that is not named is this machine. -/
def reachedAt (host : List Char) : List Char :=
  if host = [] then "localhost".toList else Url.small host

/-- What is a letter in lower case is a letter. -/
theorem isAlpha_of_toLower {c : Char} (h : c.toLower.isAlpha = true) : c.isAlpha = true := by
  unfold Char.toLower at h
  split at h
  case isTrue hupper =>
    show (c.isUpper || c.isLower) = true
    have hupper : c.isUpper = true := decide_eq_true hupper
    rw [hupper, Bool.true_or]
  case isFalse => exact h

/-- The schemes are of letters. -/
theorem letters_of_isRemote {scheme : List Char}
    (h : isRemote (String.ofList (scheme.map Char.toLower)) = true) :
    scheme ≠ [] ∧ ∀ c ∈ scheme, c.isAlpha = true := by
  have hname : scheme.map Char.toLower ∈ ["tcp".toList, "http".toList, "https".toList] := by
    have hmem : String.ofList (scheme.map Char.toLower) ∈ ["tcp", "http", "https"] := by
      simpa [isRemote] using h
    have hlists := List.mem_map_of_mem (f := String.toList) hmem
    rwa [String.toList_ofList] at hlists
  -- Small letters come from letters only, so it is enough to look at the three schemes.
  have hletters : ∀ name ∈ ["tcp".toList, "http".toList, "https".toList],
      name ≠ [] ∧ name.all Char.isAlpha = true := by decide
  obtain ⟨hne, hall⟩ := hletters _ hname
  refine ⟨fun hnil => hne (by rw [hnil]; rfl), fun c hc => ?_⟩
  exact isAlpha_of_toLower (List.all_eq_true.mp hall _ (List.mem_map_of_mem hc))

/-- Without a host of its own in the settings, an engine is at the host that its address names. -/
theorem host_of_leads (hunset : nonempty a.settings.hostOverride = none) (h : a.Leads host) :
    a.host = .ok (String.ofList (reachedAt host)) := by
  obtain ⟨scheme, hscheme, hnames⟩ := h
  obtain ⟨hne, hletters⟩ := letters_of_isRemote hscheme
  obtain ⟨u, hparse, hu, hhost⟩ := Url.parse_of_namesHost hne hletters hnames
  unfold Address.host
  simp only [hunset, hparse, hu, if_pos hscheme, hhost, reachedAt]
  split <;> rfl

/-- What the host under which containers are reached is written with. There are colons in it if it
is a version 6 address, and it is a name if not. -/
theorem reachedAt_of_names {written : List Char} (h : Url.Names written host) :
    (∀ c ∈ reachedAt host, Url.inHost c = true) ∧ (':' ∈ reachedAt host ↔ ':' ∈ host) ∧
      (':' ∉ reachedAt host → Url.IsEncoded Url.isPlain (reachedAt host)) := by
  -- An empty host stands for the local one, any other for itself in small letters.
  by_cases hnil : host = []
  · have hlocal : reachedAt host = "localhost".toList := if_pos hnil
    rw [hlocal, hnil]
    exact ⟨List.all_eq_true.mp (by decide), by decide, fun _ => Url.isEncoded_of_all (by decide)⟩
  · have hsmall : reachedAt host = Url.small host := if_neg hnil
    rw [hsmall]
    refine ⟨Url.inHost_small h.inHost, ?_, ?_⟩
    · -- A name has no colon, and an address of the long kind has one.
      cases h with
      | name h =>
        have hbefore := Url.colon_not_mem_of_isEncoded h
        have hafter := Url.colon_not_mem_of_isEncoded (Url.isEncoded_small h)
        exact iff_of_false hafter hbefore
      | address h hzone =>
        have hcolon := Text.Internet.colon_mem_of_isLong h hzone
        exact iff_of_true (Url.colon_mem_small hcolon hzone) hcolon
    · intro hnone
      cases h with
      | name h => exact Url.isEncoded_small h
      | address h hzone =>
        exact absurd (Url.colon_mem_small (Text.Internet.colon_mem_of_isLong h hzone) hzone) hnone

end Address

namespace Adapter

/-- The host of a container that was read off. -/
theorem host_of_reading {a : Adapter} {facts : Facts} {c : Container}
    (h : a.reading facts = .ok c) :
    a.address.host = .ok c.host := by
  simp only [reading, bind, Except.bind] at h
  -- Each part of the reading must have succeeded, the host among them.
  split at h
  · cases h
  · split at h
    · cases h
    · rename_i host hhost
      split at h
      · cases h
      · split at h
        · cases h
        · cases h
          exact hhost

/-- What the host of a container is written with, if its engine is at an address that names a host.
-/
theorem host_of_inspect {a : Adapter} {id : String} {s t : Session} {c : Container}
    {host : List Char}
    (h : a.inspect id s = (.ok c, t))
    (hunset : Address.nonempty a.address.settings.hostOverride = none)
    (hleads : a.address.Leads host) :
    (∀ d ∈ c.host.toList, Url.inHost d = true) ∧ (':' ∈ c.host.toList ↔ ':' ∈ host) ∧
      (':' ∉ c.host.toList → Url.IsEncoded Url.isPlain c.host.toList) := by
  have hread := host_of_reading (reading_of_inspect h)
  rw [Address.host_of_leads hunset hleads] at hread
  rw [← Except.ok.inj hread, String.toList_ofList]
  obtain ⟨_, -, _, _, _, _, -, -, hnames, -⟩ := hleads
  exact Address.reachedAt_of_names hnames

end Adapter

end Engine

/-! ### The URL of a probe -/

namespace HttpProbe

/-- A rooted path begins with a slash. -/
theorem head?_rooted (path : String) : (rooted path).toList.head? = some '/' := by
  unfold rooted
  split
  · assumption
  · simp

/-- The check of a probe gives it a path that starts with a slash. -/
theorem head?_path {d : Datum} {p : HttpProbe}
    (h : Validation.record "Http" Validation.httpFields d = .valid p) :
    p.path.toList.head? = some '/' := by
  unfold Validation.record at h
  split at h
  · have hfields := Checked.yields_eq_iff.mpr h
    simp only [Validation.httpFields, Checked.yields_seq, Checked.yields_fmap] at hfields
    obtain ⟨_, -, path, -, _, -, _, -, _, -, _, -, _, -, _, -, _, -, _, -, rfl⟩ := hfields
    exact head?_rooted path
  · cases h

end HttpProbe

namespace Readiness.Http

variable {scene : Scene} {p : HttpProbe}

/-- All requests of a wait are for one URL, and there is one if any time is left. -/
theorem requests_poll (scene : Scene) (p : HttpProbe) (url : String) (d : Deadline) (now : Int) :
    (∀ r ∈ (poll scene p url d now).trace.requests, r.2.url = url) ∧
      (d.isExpired now = false → (poll scene p url d now).trace.requests ≠ []) := by
  have hafter (time : Int) (r : World.Request) (e : Ending) :
      (Ending.after time (.request r) e).trace.requests = (time, r) :: e.trace.requests := rfl
  -- The induction is on the requests. Each one is for the URL, and the others come later.
  fun_induction poll scene p url d now with
  | case1 now hexpired =>
    refine ⟨fun r hr => (by cases hr), fun hleft => ?_⟩
    rw [hexpired] at hleft
    cases hleft
  | case2 now _ limit met ih =>
    rw [hafter]
    refine ⟨?_, fun _ => List.cons_ne_nil _ _⟩
    intro r hr
    rcases List.mem_cons.mp hr with rfl | hr
    · rfl
    · revert hr
      split
      · intro hr
        cases hr
      · intro hr
        cases hr
      · simp only
        split
        · exact (ih ‹_›).1 r
        · intro hr
          cases hr

/-- The text of the URL of a probe. -/
theorem toList_url (p : HttpProbe) (host : String) (n : Int) :
    (p.scheme.name ++ "://" ++ (host ++ ":" ++ toString n) ++ p.path).toList =
      p.scheme.name.toList ++ ':' :: '/' :: '/' ::
        ((host.toList ++ ':' :: (toString n).toList) ++ p.path.toList) := by
  simp only [String.toList_append, List.append_assoc]
  rfl

/-- A wait for an answer sends its requests to a URL with the scheme of the probe and a path that
starts with a slash. The authority of that URL is that of the host and the port at which the port of
the probe is published, unless the host is a version 6 address or the port is negative. -/
theorem wait_addresses_iff {a : Engine.Adapter} {id : String} {s t : Engine.Session}
    {host : List Char}
    {datum : Datum} {n : Int} (hinspect : a.inspect id s = (.ok scene.container, t))
    (hunset : Engine.Address.nonempty a.address.settings.hostOverride = none)
    (hleads : a.address.Leads host)
    (hprobe : Validation.record "Http" Validation.httpFields datum = .valid p)
    (hport : scene.container.resolve p.port = .ok n) (d : Deadline) (now : Int) :
    ∃ url authority,
      (∀ r ∈ (wait scene p d now).trace.requests, r.2.url = url) ∧
      (d.isExpired now = false → (wait scene p d now).trace.requests ≠ []) ∧
      (Url.components url.toList).scheme = p.scheme.name.toList ∧
      (Url.components url.toList).path.head? = some '/' ∧
      (Url.components url.toList).authority = some authority ∧
      (Url.Addresses authority scene.container.host.toList n ↔ ':' ∉ host ∧ 0 ≤ n) := by
  obtain ⟨hkind, hcolon, hform⟩ := Engine.Adapter.host_of_inspect hinspect hunset hleads
  have hurl : wait scene p d now = poll scene p
      (p.scheme.name ++ "://" ++ (scene.container.host ++ ":" ++ toString n) ++ p.path) d now := by
    unfold wait Container.endpoint
    rw [hport]
    rfl
  obtain ⟨hsame, hsome⟩ := requests_poll scene p
    (p.scheme.name ++ "://" ++ (scene.container.host ++ ":" ++ toString n) ++ p.path) d now
  -- Neither in the host nor in the port is there a delimiter, whether they make up an authority or
  -- not.
  have hinside : ∀ c ∈ scene.container.host.toList ++ ':' :: (toString n).toList,
      c ∉ ['/', '?', '#'] :=
    fun c hc => Url.not_delimiter_of_inHost (Url.inHost_append_port hkind n c hc)
  obtain ⟨rest, -, hcomponents⟩ := Url.components_append p.scheme.name.toList
    (by cases p.scheme <;> decide) (by cases p.scheme <;> simp [Scheme.name]) hinside
    (HttpProbe.head?_path hprobe)
  rw [← toList_url] at hcomponents
  refine ⟨_, _, hurl ▸ hsame, hurl ▸ hsome, ?_, ?_, congrArg Url.Components.authority hcomponents,
    ?_⟩
  · rw [hcomponents]
  · rw [hcomponents]
    rfl
  · rw [Url.addresses_iff hkind hform, hcolon]

/-- An engine that is reached over a network by a user, with one container. -/
def remote : Engine.Adapter := ⟨⟨.usual, "tcp://deploy@Docker-1.example:2376"⟩, 0⟩
def served : Engine.Session where
  facts :=
    { id := "c1"
      status := "running"
      attributes := .object
        [("NetworkSettings", .object [("Ports", .object
          [("8080/tcp",
            .list [.object [("HostIp", .text "0.0.0.0"), ("HostPort", .text "49154")]])])]),
          ("State", .object [("StartedAt", .text "2024-05-01T10:00:00.123456789Z")])]
      logs := []
      output := []
      exitCode := none }
  turns := []
  sent := []

/-- The container as it is inspected, and a scene of it. -/
def inspected : Container := (remote.inspect "c1" served).1.toOption.getD ⟨"", "", [], none⟩
def inspectedScene : Scene := ⟨inspected, .quiet, .quiet, .usual⟩

/-- A probe of a path without a slash at its start. -/
def probe : Datum := .record [("path", .text "health"), ("port", .int 8080)]

/-- The address of the remote engine leads to its host. -/
theorem remote_leads : remote.address.Leads "Docker-1.example".toList :=
  ⟨"tcp".toList, by decide, "deploy".toList ++ ['@'], "Docker-1.example".toList, ":2376".toList, [],
    by decide, .some (Url.isEncoded_of_all (by decide)), .name (Url.isEncoded_of_all (by decide)),
    .some (List.all_eq_true.mp (by decide)), fun c hc => by cases hc⟩

/-- The law at a remote engine with capitals in its name. -/
theorem wait_addresses_iff_of_served :
    inspected.host = "docker-1.example" ∧ inspected.resolve (.tcp 8080) = .ok 49154 ∧
      ∃ url authority,
        (∀ r ∈ (wait inspectedScene (.get "health" (.tcp 8080)) (.start 0 (.ofNat 5))
          0).trace.requests,
          r.2.url = url) ∧
        (wait inspectedScene (.get "health" (.tcp 8080)) (.start 0 (.ofNat 5)) 0).trace.requests ≠
          [] ∧
        (Url.components url.toList).scheme = "http".toList ∧
        (Url.components url.toList).path.head? = some '/' ∧
        (Url.components url.toList).authority = some authority ∧
        Url.Addresses authority "docker-1.example".toList 49154 := by
  have hhost : inspected.host = "docker-1.example" := by decide +kernel
  have hport : inspected.resolve (.tcp 8080) = .ok 49154 := by decide +kernel
  have hinspect : remote.inspect "c1" served =
      (.ok inspectedScene.container, (served.sending (.findContainer "c1")).sending .reload) := rfl
  -- A path without a slash, as a launch file may have it.
  have hprobe : Validation.record "Http" Validation.httpFields probe =
      .valid (.get "health" (.tcp 8080)) := rfl
  obtain ⟨url, authority, hsame, hsome, hscheme, hpath, hauthority, hiff⟩ :=
    wait_addresses_iff hinspect rfl remote_leads hprobe hport (.start 0 (.ofNat 5)) 0
  refine ⟨hhost, hport, url, authority, hsame, hsome (by decide +kernel), hscheme, hpath,
    hauthority, ?_⟩
  rw [← hhost]
  exact hiff.mpr ⟨by decide, by decide⟩

end Readiness.Http
end Slipway
