import Slipway.Engine.Attributes
import Slipway.Engine.Session
import Slipway.Engine.StartTime

/-!
# `Slipway.Proofs.Engine.Attributes`: attributes of the usual shape

The attributes of a container come from the engine, which documents their shape: the port table is
an object of lists of places, or null, and the start and the health stand in the state.
`IsWellFormed` says this, and no more than the readers of the attributes need. Members that nobody
reads may be anything.

Each reader gives a value then: `ports_total`, `startedAt_total` and `health_total`. The proofs
follow the readers, from a single place up to the table. -/

set_option autoImplicit false

namespace Slipway.Engine

namespace Attributes

/-! ### Shapes -/

/-- Whether a value is a place at which a port is published: its address is a text, if it has one,
and its port is a text that is a number. -/
def IsPlace (j : Json) : Prop :=
  (∀ ip, j.get? "HostIp" = some ip → ∃ text, ip = .text text) ∧
    ∃ text n, j.get? "HostPort" = some (.text text) ∧ Text.Integer.literal text.toList = .ok n

/-- Whether a value gives the places of a port, or null for none. -/
def ArePlaces : Json → Prop
  | .null => True
  | .list places => ∀ place ∈ places, IsPlace place
  | _ => False

/-- Whether a value is a table of ports, or null for none. -/
def IsPortTable : Json → Prop
  | .null => True
  | .object entries => ∀ entry ∈ entries, ArePlaces entry.2
  | _ => False

/-- Whether a value says when a container started; null if it did not. -/
def IsStart (j : Json) : Prop :=
  j = .null ∨ ∃ s t, j = .text s ∧ StartTime.parse (some s) = .ok t

/-- Whether a value says how healthy a container is; null if nobody knows. -/
def IsHealth (j : Json) : Prop :=
  j = .null ∨ ∃ status, j.get? "Status" = some (.text status)

/-- Whether attributes have the shape that the engine documents. -/
structure IsWellFormed (attributes : Json) : Prop where
  network : ∃ network table, attributes.get? "NetworkSettings" = some network ∧
    network.get? "Ports" = some table ∧ IsPortTable table
  state : ∃ members, attributes.get? "State" = some (.object members) ∧
    (∀ j, Json.get? "StartedAt" (.object members) = some j → IsStart j) ∧
    ∀ j, Json.get? "Health" (.object members) = some j → IsHealth j

/-! ### Members -/

/-- What has a member is an object. -/
theorem exists_members {j v : Json} {name : String} (h : j.get? name = some v) :
    ∃ members, j = .object members := by
  cases j with
  | object members => exact ⟨members, rfl⟩
  | _ => cases h

/-- A member that is there is found. -/
theorem need_eq_ok {j v : Json} {name : String} (h : j.get? name = some v) :
    need name j = .ok v := by
  obtain ⟨members, rfl⟩ := exists_members h
  rw [need, h]

/-! ### Ports -/

/-- Of a place it is known whether its address is a long one. -/
theorem isLong_total {place : Json} (h : IsPlace place) : ∃ long, isLong place = .ok long := by
  obtain ⟨hip, text, n, hport, -⟩ := h
  obtain ⟨members, rfl⟩ := exists_members hport
  cases hget : Json.get? "HostIp" (.object members) with
  | none => exact ⟨false, by rw [isLong, want, hget]; rfl⟩
  | some ip =>
    obtain ⟨address, rfl⟩ := hip ip hget
    exact ⟨address.toList.contains ':', by rw [isLong, want, hget]; rfl⟩

/-- Of places those with short addresses are picked. -/
theorem shortPlaces_total {places : List Json} (h : ∀ place ∈ places, IsPlace place) :
    ∃ short, shortPlaces places = .ok short ∧ ∀ place ∈ short, place ∈ places := by
  induction places with
  | nil => exact ⟨[], rfl, fun place hplace => hplace⟩
  | cons place rest ih =>
    obtain ⟨long, hlong⟩ := isLong_total (h place List.mem_cons_self)
    obtain ⟨others, hothers, hmem⟩ := ih fun p hp => h p (List.mem_cons_of_mem _ hp)
    refine ⟨if long then others else place :: others, by rw [shortPlaces, hlong, hothers]; rfl, ?_⟩
    -- Nothing is kept that was not given, so what is kept has the shape of a place too.
    intro p hp
    split at hp
    · exact List.mem_cons_of_mem _ (hmem p hp)
    · exact List.cons_subset_cons place hmem hp

/-- Of places one is chosen, if there are any. -/
theorem chosen?_total {places : List Json} (h : ∀ place ∈ places, IsPlace place) :
    ∃ choice, chosen? places = .ok choice ∧ ∀ place, choice = some place → IsPlace place := by
  obtain ⟨short, hshort, hmem⟩ := shortPlaces_total h
  refine ⟨short.head?.or places.head?, by rw [chosen?, hshort]; rfl, ?_⟩
  intro place hplace
  rcases Option.or_eq_some_iff.mp hplace with hhead | ⟨-, hhead⟩
  · exact h place (hmem place (List.mem_of_head? hhead))
  · exact h place (List.mem_of_head? hhead)

/-- Places give a port, or none where nothing is published. -/
theorem hostPort_total {places : Json} (h : ArePlaces places) :
    ∃ port, hostPort places = .ok port := by
  -- Attributes may say `null` instead of an empty list.
  cases places with
  | null => exact ⟨none, rfl⟩
  | list js =>
    by_cases hnothing : isNothing (.list js) = true
    · exact ⟨none, by rw [hostPort, if_pos hnothing]⟩
    · obtain ⟨choice, hchoice, hplace⟩ := chosen?_total h
      rw [hostPort, if_neg hnothing]
      cases choice with
      | none => exact ⟨none, by rw [itemsOf]; simp only [bind, Except.bind, hchoice]; rfl⟩
      | some place =>
        obtain ⟨-, text, n, hport, hnumber⟩ := hplace place rfl
        refine ⟨some n, ?_⟩
        simp only [itemsOf, bind, Except.bind, hchoice, need_eq_ok hport, portNumber, hnumber]
        rfl
  | _ => exact h.elim

/-- So do the places of all ports, one after the other. -/
theorem hostPorts_total {entries : List (String × Json)}
    (h : ∀ entry ∈ entries, ArePlaces entry.2) :
    ∃ table, hostPorts entries = .ok table := by
  induction entries with
  | nil => exact ⟨[], rfl⟩
  | cons entry rest ih =>
    obtain ⟨port, hport⟩ := hostPort_total (h entry List.mem_cons_self)
    obtain ⟨table, htable⟩ := ih fun e he => h e (List.mem_cons_of_mem _ he)
    exact ⟨_, by rw [hostPorts, hport, htable]; rfl⟩

section
variable {attributes : Json}

/-- Well-formed attributes have a table of ports. -/
theorem ports_total (h : IsWellFormed attributes) : ∃ table, ports attributes = .ok table := by
  obtain ⟨network, table, hnetwork, htable, hshape⟩ := h.network
  simp only [ports, bind, Except.bind, need_eq_ok hnetwork, need_eq_ok htable]
  cases table with
  | null => exact ⟨[], rfl⟩
  | object entries => exact hostPorts_total hshape
  | _ => exact hshape.elim

/-! ### State -/

/-- A start is read, and it is one that can be parsed. -/
theorem startedAt_total (h : IsWellFormed attributes) :
    ∃ started t, startedAt attributes = .ok started ∧ StartTime.parse started = .ok t := by
  obtain ⟨members, hstate, hstart, -⟩ := h.state
  simp only [startedAt, bind, Except.bind, need_eq_ok hstate, want]
  cases hget : Json.get? "StartedAt" (.object members) with
  | none => exact ⟨none, none, rfl, rfl⟩
  | some j =>
    rcases hstart j hget with rfl | ⟨s, t, rfl, ht⟩
    · exact ⟨none, none, rfl, rfl⟩
    · exact ⟨some s, t, rfl, ht⟩

/-- Well-formed attributes tell the health, if there is a healthcheck. -/
theorem health_total (h : IsWellFormed attributes) : ∃ status, health attributes = .ok status := by
  obtain ⟨members, hstate, -, hhealth⟩ := h.state
  simp only [health, bind, Except.bind, need_eq_ok hstate, want]
  cases hget : Json.get? "Health" (.object members) with
  | none => exact ⟨none, rfl⟩
  | some j =>
    rcases hhealth j hget with rfl | ⟨status, hstatus⟩
    · exact ⟨none, rfl⟩
    · -- The object has a member, so it is not nothing. The reader asks all the same.
      refine ⟨if isNothing j then none else some status, ?_⟩
      simp only [Option.getD_some, need_eq_ok hstatus]
      split <;> rfl

end

end Attributes

/-- Whether all that an engine says of a container has the shape that it documents. A command gives
no output or that of both streams. -/
structure Facts.IsWellFormed (facts : Facts) : Prop where
  attributes : Attributes.IsWellFormed facts.attributes
  output : facts.output = [] ∨ ∃ out err, facts.output = [out, err]

end Slipway.Engine
