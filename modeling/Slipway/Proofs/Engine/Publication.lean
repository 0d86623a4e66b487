import Slipway.Proofs.Engine.Acts
import Slipway.Proofs.Port

/-!
# `Slipway.Proofs.Engine.Publication`: the host port at which a port is reached

The engine lists for every port the places at which it is published, in any order and at addresses
of either kind. `inspect_publishes` states at which host port an inspected container is reached:
that of the first place whose address has no colons, or else that of the first place. A port without
a place is not published, and the places of one port do not bear on another.

The list of one port is read as its preferred place (`chosen?_eq_some_iff`), the table by induction
on its entries (`hostPorts_of_bindings`), and the inspection as a reading of what is known of the
container (`inspect_of_granted`, `resolve_of_reading`). -/

set_option autoImplicit false

namespace Slipway.Engine

namespace Attributes

/-! ### Places -/

/-- Whether a place is at an address with colons. One without an address is not. -/
def isAtLongAddress (place : Json) : Bool :=
  match place.get? "HostIp" with
  | some (.text ip) => ip.toList.contains ':'
  | _ => false

/-- Whether a place has a host port: a number, or a text that writes one. -/
def HasPort (place : Json) (n : Int) : Prop :=
  place.get? "HostPort" = some (.int n) ∨
    ∃ text, place.get? "HostPort" = some (.text text) ∧ Text.Integer.Writes text.toList n

/-- Whether a value is a place at which a port is published. It need not have an address. -/
def IsBinding (place : Json) : Prop :=
  (∀ ip, place.get? "HostIp" = some ip → ∃ text, ip = .text text) ∧ ∃ n, HasPort place n

/-- Whether a value lists places, or is null. -/
def AreBindings : Json → Prop
  | .null => True
  | .list places => ∀ place ∈ places, IsBinding place
  | _ => False

/-- The places that a value lists. -/
def placesOf : Json → List Json
  | .list places => places
  | _ => []

/-- The place at which a port is reached: the first whose address has no colons, or else the first.
-/
inductive Preferred (places : List Json) : Json → Prop where
  | short {before : List Json} {place : Json} {after : List Json}
      (hplaces : places = before ++ place :: after) (hshort : isAtLongAddress place = false)
      (hlong : ∀ p ∈ before, isAtLongAddress p = true) : Preferred places place
  | long {place : Json} {after : List Json} (hplaces : places = place :: after)
      (hlong : ∀ p ∈ places, isAtLongAddress p = true) : Preferred places place

/-- Whether a port that is published at some places is reached at a host port. -/
def IsReached (places : List Json) (n : Int) : Prop :=
  ∃ place, Preferred places place ∧ HasPort place n

section
variable {place : Json} {places : List Json} {n : Int}

/-- Of a binding it is known whether it is at a long address. -/
theorem isLong_of_isBinding (h : IsBinding place) : isLong place = .ok (isAtLongAddress place) := by
  obtain ⟨hip, n, hport⟩ := h
  obtain ⟨members, rfl⟩ : ∃ members, place = .object members := by
    rcases hport with h | ⟨text, h, -⟩ <;> exact exists_members h
  unfold isLong want isAtLongAddress
  cases hget : Json.get? "HostIp" (.object members) with
  | none => rfl
  | some ip =>
    obtain ⟨text, rfl⟩ := hip ip hget
    rfl

/-- Of bindings those at short addresses are picked. -/
theorem shortPlaces_of_bindings (h : ∀ place ∈ places, IsBinding place) :
    shortPlaces places = .ok (places.filter fun place => !isAtLongAddress place) := by
  induction places with
  | nil => rfl
  | cons place rest ih =>
    rw [shortPlaces, isLong_of_isBinding (h place List.mem_cons_self),
      ih fun p hp => h p (List.mem_cons_of_mem _ hp)]
    cases hlong : isAtLongAddress place <;> simp [hlong, bind, Except.bind, pure, Except.pure]

/-- The first binding at a short address is chosen, or else the first of all. -/
theorem chosen?_of_bindings (h : ∀ place ∈ places, IsBinding place) :
    chosen? places = .ok ((places.find? fun place => !isAtLongAddress place).or places.head?) := by
  rw [chosen?, shortPlaces_of_bindings h, ← List.head?_filter]
  rfl

/-- The place that is chosen is the preferred one. -/
theorem chosen?_eq_some_iff (h : ∀ place ∈ places, IsBinding place) :
    chosen? places = .ok (some place) ↔ Preferred places place := by
  rw [chosen?_of_bindings h, Except.ok.injEq, Option.or_eq_some_iff, List.find?_eq_some_iff_append,
    List.find?_eq_none]
  -- Both sides tell the first short one from a first one where there is no short one.
  constructor
  · rintro (⟨hshort, before, after, hplaces, hlong⟩ | ⟨hlong, hhead⟩)
    · exact .short hplaces (by simpa using hshort) fun p hp => by simpa using hlong p hp
    · obtain ⟨after, hplaces⟩ := List.head?_eq_some_iff.mp hhead
      exact .long hplaces fun p hp => by simpa using hlong p hp
  · intro h
    cases h with
    | short hplaces hshort hlong =>
      exact .inl ⟨by simpa using hshort, _, _, hplaces, fun p hp => by simpa using hlong p hp⟩
    | long hplaces hlong =>
      exact .inr ⟨fun p hp => by simpa using hlong p hp, by rw [hplaces, List.head?_cons]⟩

/-- A host port is a member whose number it is. -/
theorem need_of_hasPort (h : HasPort place n) :
    ∃ v, need "HostPort" place = .ok v ∧ portNumber v = .ok n := by
  rcases h with hget | ⟨text, hget, hwrites⟩
  · exact ⟨.int n, need_eq_ok hget, rfl⟩
  · refine ⟨.text text, need_eq_ok hget, ?_⟩
    rw [portNumber, Text.Integer.literal_eq_ok_iff.mpr hwrites]

/-- A place has one host port, and a port is reached at one. -/
theorem HasPort.unique {m : Int} (hn : HasPort place n) (hm : HasPort place m) : n = m := by
  obtain ⟨v, hv, hvn⟩ := need_of_hasPort hn
  obtain ⟨w, hw, hwm⟩ := need_of_hasPort hm
  rw [hv, Except.ok.injEq] at hw
  rw [← hw, hvn, Except.ok.injEq] at hwm
  exact hwm

/-- A port is reached by one number only. -/
theorem IsReached.unique {m : Int} (h : ∀ place ∈ places, IsBinding place) (hn : IsReached places n)
    (hm : IsReached places m) : n = m := by
  obtain ⟨place, hplace, hn⟩ := hn
  obtain ⟨other, hother, hm⟩ := hm
  rw [← chosen?_eq_some_iff h] at hplace hother
  rw [hplace, Except.ok.injEq, Option.some.injEq] at hother
  exact hn.unique (hother ▸ hm)

/-- The preferred binding is one of them. -/
theorem Preferred.mem (h : Preferred places place) : place ∈ places := by
  cases h with
  | short hplaces => simp [hplaces]
  | long hplaces => simp [hplaces]

/-- Without bindings no port is reached. -/
theorem IsReached.not_nil : ¬ IsReached [] n := by
  rintro ⟨place, hplace, -⟩
  exact List.not_mem_nil hplace.mem

/-- A port that is published anywhere has a preferred place. -/
theorem exists_preferred (h : ∀ place ∈ places, IsBinding place) (hne : places ≠ []) :
    ∃ place, Preferred places place := by
  cases hchoice : (places.find? fun place => !isAtLongAddress place).or places.head? with
  | none => exact absurd (List.head?_eq_none_iff.mp (Option.or_eq_none_iff.mp hchoice).2) hne
  | some place =>
    refine ⟨place, (chosen?_eq_some_iff h).mp ?_⟩
    rw [chosen?_of_bindings h, hchoice]

end

/-! ### Tables -/

/-- The places of a port in a table: none if its key is not in it, or has null. -/
def placesAt (key : String) (entries : List (String × Json)) : List Json :=
  match entries.lookup key with
  | some places => placesOf places
  | none => []

/-- The host port of a port that is published, if it is. -/
def IsPublished (places : List Json) : Option Int → Prop
  | none => places = []
  | some n => IsReached places n

/-- Bindings publish the port of the preferred one, and no bindings publish none. -/
theorem hostPort_of_bindings {j : Json} (h : AreBindings j) :
    ∃ port, hostPort j = .ok port ∧ IsPublished (placesOf j) port := by
  cases j with
  | null => exact ⟨none, rfl, rfl⟩
  | list places =>
    cases places with
    | nil => exact ⟨none, rfl, rfl⟩
    | cons first rest =>
      -- There is a first binding, so one of them is preferred.
      have hne : first :: rest ≠ [] := List.cons_ne_nil first rest
      obtain ⟨place, hplace⟩ := exists_preferred h hne
      obtain ⟨-, n, hport⟩ := h place hplace.mem
      obtain ⟨v, hv, hn⟩ := need_of_hasPort hport
      refine ⟨some n, ?_, place, hplace, hport⟩
      have hchosen := (chosen?_eq_some_iff h).mpr hplace
      simp only [hostPort, isNothing, List.isEmpty_cons, Bool.false_eq_true, if_false, itemsOf,
        bind,
        Except.bind, hchosen, hv, hn]
      rfl
  | _ => exact h.elim

section
variable {entries : List (String × Json)} {attributes : Json}

/-- The first entry of a table counts for its key. -/
theorem placesAt_cons (key key' : String) (places : Json) :
    placesAt key ((key', places) :: entries) = if key = key' then placesOf places
      else placesAt key entries := by
  by_cases hkey : key = key'
  · simp [placesAt, hkey]
  · have hne : (key == key') = false := beq_false_of_ne hkey
    simp [placesAt, List.lookup_cons, hne, hkey]

/-- A key that is not in the table has no places. -/
theorem placesAt_of_not_mem {key : String} (h : key ∉ entries.map Prod.fst) :
    placesAt key entries = [] := by
  have hnone : entries.lookup key = none := by
    rw [List.lookup_eq_none_iff]
    intro e he
    rw [bne_iff_ne]
    rintro rfl
    exact h (List.mem_map_of_mem he)
  rw [placesAt, hnone]

/-- In the table of host ports each port is published as its own places say. -/
theorem hostPorts_of_bindings (h : ∀ e ∈ entries, AreBindings e.2)
    (hkeys : (entries.map Prod.fst).Nodup) :
    ∃ table, hostPorts entries = .ok table ∧
      ∀ key, IsPublished (placesAt key entries) (table.lookup key) := by
  induction entries with
  | nil => exact ⟨[], rfl, fun key => rfl⟩
  | cons e rest ih =>
    obtain ⟨key', places⟩ := e
    obtain ⟨hnew, hrest⟩ := List.nodup_cons.mp hkeys
    obtain ⟨port, hport, hpublished⟩ := hostPort_of_bindings (h _ List.mem_cons_self)
    obtain ⟨table, htable, hlookup⟩ := ih (fun e he => h e (List.mem_cons_of_mem _ he)) hrest
    -- The key is not among the others, so its own places are all that counts for it.
    have hothers := placesAt_of_not_mem hnew ▸ hlookup key'
    cases port with
    | none =>
      refine ⟨table, by simp only [hostPorts, hport, htable, bind, Except.bind]; rfl, fun key => ?_⟩
      rw [placesAt_cons]
      split
      · rename_i hkey
        rw [hkey, show placesOf places = [] from hpublished]
        exact hothers
      · exact hlookup key
    | some n =>
      refine ⟨(key', n) :: table, by simp only [hostPorts, hport, htable, bind, Except.bind]; rfl,
        fun key => ?_⟩
      rw [placesAt_cons, List.lookup_cons]
      by_cases hkey : key = key'
      · simpa [hkey] using hpublished
      · simpa [hkey, beq_false_of_ne hkey] using hlookup key

/-- Whether attributes have a port table with some entries, one for each key. Null is an empty
table. -/
structure HasTable (attributes : Json) (entries : List (String × Json)) : Prop where
  table : ∃ network table, attributes.get? "NetworkSettings" = some network ∧
    network.get? "Ports" = some table ∧ (table = .object entries ∨ table = .null ∧ entries = [])
  bindings : ∀ e ∈ entries, AreBindings e.2
  keys_nodup : (entries.map Prod.fst).Nodup

/-- All places of a key are bindings. -/
theorem bindings_of_placesAt {key : String} (h : HasTable attributes entries) :
    ∀ place ∈ placesAt key entries, IsBinding place := by
  intro place hplace
  unfold placesAt at hplace
  cases hlookup : entries.lookup key with
  | none => simp [hlookup] at hplace
  | some places =>
    obtain ⟨before, after, hentries, -⟩ := List.lookup_eq_some_iff.mp hlookup
    have hbindings := h.bindings (key, places) (by simp [hentries])
    simp only [hlookup] at hplace
    -- The places are a list of bindings, or there are none.
    cases places with
    | list places => exact hbindings place hplace
    | null => cases hplace
    | _ => exact hbindings.elim

/-- A table of bindings gives a table of ports that publishes each key as its bindings say. -/
theorem ports_of_hasTable (h : HasTable attributes entries) :
    ∃ table, ports attributes = .ok table ∧
      ∀ key, IsPublished (placesAt key entries) (table.lookup key) := by
  obtain ⟨network, table, hnetwork, htable, hentries⟩ := h.table
  simp only [ports, bind, Except.bind, need_eq_ok hnetwork, need_eq_ok htable]
  rcases hentries with rfl | ⟨rfl, rfl⟩
  · exact hostPorts_of_bindings h.bindings h.keys_nodup
  · exact ⟨[], rfl, fun key => rfl⟩

end

end Attributes

/-! ### Inspections -/

namespace Adapter

open Attributes

variable {a : Adapter} {id : String} {s t : Session} {c : Container}

/-- What an inspection reads off what is known of a container. -/
def reading (a : Adapter) (facts : Facts) : Except Fault Container := do
  let ports ← Attributes.ports facts.attributes
  let host ← a.address.host
  let started ← Attributes.startedAt facts.attributes
  let startedAt ← StartTime.parse started
  return ⟨facts.id, host, ports, startedAt⟩

/-- An inspection asks twice and reads off the rest. -/
theorem inspect_eq (a : Adapter) (id : String) (s : Session) :
    a.inspect id s = match Call.refusedAs (lost id) (sendTo id .reload) s with
      | (.ok (), t) => (a.reading t.facts, t)
      | (.error e, t) => (.error e, t) := by
  show Call.andThen
      (Call.andThen (Call.refusedAs (lost id) (sendTo id .reload)) fun _ => Call.facts) _ s = _
  unfold Call.andThen
  rcases Call.refusedAs (lost id) (sendTo id .reload) s with ⟨e | ⟨⟩, t⟩
  · rfl
  · -- Each of the readings may fail, and the first that does is the fault of both sides.
    simp only [Call.facts, reading, bind, Call.andThen, Except.bind, Call.ofExcept]
    cases Attributes.ports t.facts.attributes with
    | error e => rfl
    | ok ports =>
      cases a.address.host with
      | error e => rfl
      | ok host =>
        cases Attributes.startedAt t.facts.attributes with
        | error e => rfl
        | ok started =>
          dsimp only
          cases StartTime.parse started <;> rfl

/-- No request changes what the engine says of the container. -/
theorem facts_of_reload {r : Except Fault Unit}
    (h : Call.refusedAs (lost id) (sendTo id .reload) s = (r, t)) : t.facts = s.facts := by
  have hmeets : (Call.refusedAs (lost id) (sendTo id .reload)).Meets s fun _ _ => True :=
    Call.Meets.refusedAs ((sendTo_meets id .reload).mono fun _ _ _ => trivial)
  obtain ⟨log, hlog, -⟩ := hmeets
  rw [h] at hlog
  exact hlog.facts

/-- An inspection that gives a container read it off what was known from the start. -/
theorem reading_of_inspect (h : a.inspect id s = (.ok c, t)) : a.reading s.facts = .ok c := by
  rw [inspect_eq] at h
  rcases hreload : Call.refusedAs (lost id) (sendTo id .reload) s with ⟨e | ⟨⟩, u⟩ <;>
    simp only [hreload] at h
  · cases h
  · obtain ⟨hread, -⟩ := Prod.ext_iff.mp h
    rwa [facts_of_reload hreload] at hread

/-- A request is answered by the session, and then the session is one request further. -/
theorem send_eq (q : Request) (s : Session) :
    Call.send q s = (Call.granted (s.answer q), s.sending q) := by
  unfold Call.send
  simp only [Session.answer, Session.sending]
  split <;> simp [*, Call.granted]

/-- An inspection whose requests are granted gives what is read off. -/
theorem inspect_of_granted (hgranted : s.Answers (allGranted [.findContainer id, .reload]) t) :
    a.inspect id s = (a.reading s.facts, t) := by
  obtain ⟨hfind, hreload, rfl⟩ := hgranted
  have hsend : sendTo id .reload s = (.ok (), (s.sending (.findContainer id)).sending .reload) := by
    show Call.andThen (Call.send (.findContainer id)) (fun _ => Call.send .reload) s = _
    rw [Call.andThen, send_eq, hfind]
    show Call.send .reload (s.sending (.findContainer id)) = _
    rw [send_eq, hreload]
    rfl
  rw [inspect_eq, Call.refusedAs_eq, hsend]
  rfl

/-- The port table of a container that was read off. -/
theorem ports_of_reading {facts : Facts} (h : a.reading facts = .ok c) :
    Attributes.ports facts.attributes = .ok c.ports := by
  simp only [reading, bind, Except.bind] at h
  cases hports : Attributes.ports facts.attributes with
  | error e => simp [hports] at h
  | ok ports =>
    simp only [hports] at h
    -- The ports are kept as they are, whatever else is read of the attributes.
    split at h
    · cases h
    · split at h
      · cases h
      · split at h
        · cases h
        · cases h
          rfl

/-- A container that was read off resolves each port as the places of that port say. -/
theorem resolve_of_reading {facts : Facts} {entries : List (String × Json)}
    (htable : HasTable facts.attributes entries) (h : a.reading facts = .ok c) (p : Port) :
    (∀ n, c.resolve p = .ok n ↔ IsReached (placesAt p.key entries) n) ∧
      (c.resolve p = .error (.failure (.portNotPublished p.key)) ↔
        placesAt p.key entries = []) := by
  obtain ⟨table, hports, hpublished⟩ := ports_of_hasTable htable
  rw [ports_of_reading h, Except.ok.injEq] at hports
  have hkey := hpublished p.key
  rw [← hports] at hkey
  unfold Container.resolve
  -- A port has a number in the table just if its key has bindings.
  cases hlookup : c.ports.lookup p.key with
  | none =>
    rw [hlookup] at hkey
    have hnone : placesAt p.key entries = [] := hkey
    simp [hnone, IsReached.not_nil]
  | some n =>
    rw [hlookup] at hkey
    have hreached : IsReached (placesAt p.key entries) n := hkey
    simp only [Except.ok.injEq, reduceCtorEq, false_iff]
    refine ⟨fun m => ⟨fun hm => hm ▸ hreached, fun hm => ?_⟩, fun hnil => ?_⟩
    · exact hreached.unique (bindings_of_placesAt htable) hm
    · exact IsReached.not_nil (hnil ▸ hreached)

/-- The engine is asked about a container, and grants it. The attributes of the container have a
port table, and the address of the engine and the start of the container can be read. Then the
inspection gives the container, and every port is reached at the host port of its preferred place:
the first of its places whose address has no colons, or else the first of them. It is not published
iff its key is not in the table, or has null or no places. The places of other keys do not matter:
whatever another inspection says of them, a port that has the same places resolves alike. -/
theorem inspect_publishes (a : Adapter) (id : String) (s t : Session)
    (entries : List (String × Json))
    (host : String) (text : Option String) (started : Option Calendar.Timestamp)
    (hgranted : s.Answers (allGranted [.findContainer id, .reload]) t)
    (htable : HasTable s.facts.attributes entries) (hhost : a.address.host = .ok host)
    (htext : Attributes.startedAt s.facts.attributes = .ok text)
    (hstarted : StartTime.parse text = .ok started) :
    ∃ c, a.inspect id s = (.ok c, t) ∧ ∀ p : Port,
      (∀ n, c.resolve p = .ok n ↔ IsReached (placesAt p.key entries) n) ∧
      (c.resolve p = .error (.failure (.portNotPublished p.key)) ↔ placesAt p.key entries = []) ∧
      ∀ (b : Adapter) (id' : String) (u v : Session) (others : List (String × Json))
        (d : Container),
        HasTable u.facts.attributes others → placesAt p.key others = placesAt p.key entries →
          b.inspect id' u = (.ok d, v) → d.resolve p = c.resolve p := by
  obtain ⟨ports, hports, -⟩ := ports_of_hasTable htable
  have hread : a.reading s.facts = .ok ⟨s.facts.id, host, ports, started⟩ := by
    simp only [reading, hports, hhost, htext, bind, Except.bind, hstarted]
    rfl
  refine ⟨_, (inspect_of_granted hgranted).trans (by rw [hread]), fun p => ?_⟩
  obtain ⟨hreached, hmissing⟩ := resolve_of_reading htable hread p
  refine ⟨hreached, hmissing, fun b id' u v others d hothers hsame hd => ?_⟩
  obtain ⟨hreached', hmissing'⟩ := resolve_of_reading hothers (reading_of_inspect hd) p
  rw [hsame] at hreached' hmissing'
  -- Both are resolved by the same places.
  rcases d.resolve_cases p with ⟨n, -, hn⟩ | ⟨-, hnone⟩
  · rw [hn, (hreached n).mpr ((hreached' n).mp hn)]
  · rw [hnone, hmissing.mpr (hmissing'.mp hnone)]

/-- The places of a broker's port, the first of which is at an address with colons. -/
def brokerPlaces : List Json :=
  [.object [("HostIp", .text "::"), ("HostPort", .text "32801")],
    .object [("HostIp", .text "0.0.0.0"), ("HostPort", .text "32800")]]

/-- An engine with a broker of which one port is published at two places and one is not. -/
def broker : Session where
  facts :=
    { id := "c1"
      status := "running"
      attributes := .object
        [("NetworkSettings", .object [("Ports", .object
          [("9093/tcp", .null), ("9092/tcp", .list brokerPlaces)])]),
          ("State", .object [("StartedAt", .text "2024-05-01T10:00:00.123456789Z")])]
      logs := []
      output := []
      exitCode := none }
  turns := []
  sent := []

/-- The attributes of the broker hold a table of two ports. -/
theorem broker_hasTable :
    HasTable broker.facts.attributes [("9093/tcp", .null), ("9092/tcp", .list brokerPlaces)] where
  table := ⟨_, _, rfl, rfl, .inl rfl⟩
  bindings := by
    refine List.forall_mem_cons.mpr ⟨trivial, List.forall_mem_singleton.mpr ?_⟩
    refine List.forall_mem_cons.mpr ⟨⟨?_, 32801, .inr ⟨"32801", rfl, ?_⟩⟩,
      List.forall_mem_singleton.mpr ⟨?_, 32800, .inr ⟨"32800", rfl, ?_⟩⟩⟩
    · exact fun ip hip => ⟨"::", (Option.some.inj hip).symm⟩
    · exact Text.Integer.literal_eq_ok_iff.mp rfl
    · exact fun ip hip => ⟨"0.0.0.0", (Option.some.inj hip).symm⟩
    · exact Text.Integer.literal_eq_ok_iff.mp rfl
  keys_nodup := by decide

/-- The port of the broker is reached at its second place, and its other port is not published. -/
theorem inspect_publishes_at_a_broker :
    ∃ t c, broker.Answers (allGranted [.findContainer "c1", .reload]) t ∧
      HasTable broker.facts.attributes [("9093/tcp", .null), ("9092/tcp", .list brokerPlaces)] ∧
      Adapter.inspect ⟨⟨Settings.usual, ""⟩, 0⟩ "c1" broker = (.ok c, t) ∧
      c.resolve (.tcp 9092) = .ok 32800 ∧
      c.resolve (.tcp 9093) = .error (.failure (.portNotPublished "9093/tcp")) := by
  have hgranted : broker.Answers (allGranted [.findContainer "c1", .reload])
      ((broker.sending (.findContainer "c1")).sending .reload) := ⟨rfl, rfl, rfl⟩
  obtain ⟨c, hinspect, hresolve⟩ :=
    inspect_publishes ⟨⟨Settings.usual, ""⟩, 0⟩ "c1" broker _ _ _ _ _
    hgranted broker_hasTable rfl rfl rfl
  obtain ⟨hreached, -, -⟩ := hresolve (.tcp 9092)
  obtain ⟨-, hmissing, -⟩ := hresolve (.tcp 9093)
  have hport : HasPort (.object [("HostIp", .text "0.0.0.0"), ("HostPort", .text "32800")]) 32800 :=
    .inr ⟨"32800", rfl, Text.Integer.literal_eq_ok_iff.mp rfl⟩
  have hplaces :
      placesAt (Port.tcp 9092).key [("9093/tcp", .null), ("9092/tcp", .list brokerPlaces)] =
      brokerPlaces := rfl
  refine ⟨_, c, hgranted, broker_hasTable, hinspect, (hreached 32800).mpr ?_, hmissing.mpr rfl⟩
  -- The binding at the short address is the first, and it is the preferred one.
  rw [hplaces]
  exact ⟨_, .short (List.singleton_append (l := _)).symm rfl (List.forall_mem_singleton.mpr rfl),
    hport⟩

end Adapter

end Slipway.Engine
