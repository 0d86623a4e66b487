import Slipway.Proofs.Validation.Restoring
import Slipway.Validation.Condition

/-!
# `Slipway.Proofs.Validation.Condition`: ports, conditions and steps are restored

The dump of a condition says its kind, so it is read by the model of that kind
(`condition_of_entry`). What the fields of a model can give is read off its check once
(`ConditionOf`). A conjunction holds conditions again. The induction is on the condition and not on
the data it comes from, because the dump of a member need not be part of that data.

A step has no kind. The data of one is a command or a payload by what it can be read as, and data
that can be read as both is the one of which it sets more fields. A dump is never both: it lacks the
command of the one, or the target of the other (`source_restores`). -/

set_option autoImplicit false

namespace Slipway.Validation

open Checked (yields_seq yields_fmap yields_eq_iff map_eq_valid andThen_eq_valid under_eq_valid)

/-! ### Ports and the kinds of condition -/

/-- Protocols are read back from their names. -/
theorem protocol_lossless : Lossless (named Protocol.all Protocol.name) fun p => .text p.name :=
  named_lossless fun p => by cases p <;> rfl

/-- Streams are read back from their names. -/
theorem stream_lossless : Lossless (named Stream.all Stream.name) fun s => .text s.name :=
  named_lossless fun s => by cases s <;> rfl

/-- Schemes are read back from their names. -/
theorem scheme_lossless : Lossless (named Scheme.all Scheme.name) fun s => .text s.name :=
  named_lossless fun s => by cases s <;> rfl

/-- A word is the word that is asked for. -/
theorem exactly_text (word : String) : exactly word (.text word) = .valid () := by
  simp [exactly, named, Checked.map]

/-- A record of one kind may say so. -/
theorem kind_of_entry {word : String} {entries : Fields}
    (h : Datum.entry? "kind" entries = some (.text word)) : kind word entries = .valid () := by
  rw [kind, optional_of_entry h, exactly_text, Checked.under]

/-- Port numbers are read back. -/
theorem portNumber_lossless : Lossless portNumber fun n => .int n.1 := by
  intro n
  have hrange : (1 : Int) ≤ n.1 ∧ (n.1 : Int) ≤ 65535 := by
    have hn := n.2
    omega
  rw [portNumber, integer, Checked.andThen, dif_pos hrange]
  rfl

/-- Ports are read back. -/
theorem port_lossless : Lossless port Port.dump := by
  intro p
  show portFields _ = .valid p
  rw [← yields_eq_iff]
  simp only [portFields, yields_seq, yields_fmap]
  exact ⟨⟨p.number, p.one_le, p.le_max⟩, portNumber_lossless.required rfl, _,
    protocol_lossless.optional rfl, rfl⟩

/-- Conditions on the log are read back. -/
theorem logMessage_lossless : Lossless (record "LogMessage" logMessageFields) LogMessage.dump := by
  refine lossless_record fun m => ⟨_, rfl, ?_⟩
  simp only [logMessageFields, yields_seq, yields_fmap]
  exact ⟨_, kind_of_entry rfl, _, stream_lossless.optional rfl,
    ⟨m.text, m.text_ne⟩, nonemptyString_lossless.required rfl, rfl⟩

/-- A path that was given a slash in front is not given another. -/
theorem rooted_rooted (path : String) :
    HttpProbe.rooted (HttpProbe.rooted path) = HttpProbe.rooted path := by
  by_cases h : path.toList.head? = some '/'
  · have hsame : HttpProbe.rooted path = path := if_pos h
    rw [hsame, hsame]
  · have hslash : ("/" ++ path).toList.head? = some '/' := by simp
    have hrooted : HttpProbe.rooted path = "/" ++ path := if_neg h
    rw [hrooted, HttpProbe.rooted, if_pos hslash]

/-- Conditions on an endpoint are restored. -/
theorem http_restores : Restores (record "Http" httpFields) HttpProbe.dump := by
  refine restores_record fun entries h hread => ⟨_, rfl, ?_⟩
  simp only [httpFields, yields_seq, yields_fmap] at hread ⊢
  obtain ⟨_, -, path, -, port, -, status, -, body, -, method, -, scheme, -, verify, -, headers,
      hheaders,
    interval, hinterval, rfl⟩ := hread
  exact ⟨_, kind_of_entry rfl, _, string_lossless.optional rfl, _, port_lossless.required rfl,
    _, integer_lossless.optional rfl, _, (string_lossless.nullable (by simp)).optional rfl,
    _, string_lossless.optional rfl, _, scheme_lossless.optional rfl, _,
    boolean_lossless.optional rfl,
    _, string_lossless.restores.table.optional rfl hheaders rfl,
    _, (positiveNumber_restores.nullable (by simp)).optional rfl hinterval rfl,
    by rw [rooted_rooted]⟩

/-- Delays are read back, under either of their names. -/
theorem delay_lossless (model word : String) :
    Lossless (record model (delayFields word)) fun n =>
      .record [("kind", .text word), ("millis", .int n)] := by
  refine lossless_record fun n => ⟨_, rfl, ?_⟩
  simp only [delayFields, yields_seq, yields_fmap]
  exact ⟨_, kind_of_entry rfl, _, natural_lossless.required rfl, rfl⟩

/-- The healthcheck condition is read back. -/
theorem healthcheckKind_lossless :
    Lossless (record "Healthcheck" (kind "healthcheck")) fun _ => Condition.healthcheck.dump :=
  fun _ => kind_of_entry rfl

/-! ### Conditions -/

/-- Members are checked as the items of a list. -/
theorem memberChecks_eq (i : Int) (items : List Datum) :
    memberChecks i items = itemChecks condition i items := by
  induction items generalizing i with
  | nil => rfl
  | cons d rest ih => rw [memberChecks, itemChecks, ih]

/-- The members of a conjunction are a tuple of at least one condition. -/
theorem members_eq : members = tupleFrom 1 condition := by
  funext d
  cases d <;> simp only [members, tupleFrom, items?, atLeastOne, memberChecks_eq]

/-- The members are a tuple that is not empty. -/
theorem membersField_eq (entries : Fields) :
    membersField entries = required "conditions" (tupleFrom 1 condition) entries := by
  induction entries with
  | nil => rfl
  | cons e rest ih =>
    obtain ⟨k, v⟩ := e
    rw [membersField, members_eq, ih]
    by_cases hkey : Datum.isKey "conditions" k = true <;> simp [required, Datum.entry?, hkey]

/-- Conditions are dumped one by one. -/
theorem dumpAll_eq_map (cs : List Condition) : Condition.dumpAll cs = cs.map Condition.dump := by
  induction cs with
  | nil => rfl
  | cons c rest ih => rw [Condition.dumpAll, ih, List.map_cons]

/-- The models of conditions that a record can be of. -/
inductive ConditionOf (entries : Fields) : Condition → Prop where
  | log {m : LogMessage} (h : logMessageFields entries = .valid m) : ConditionOf entries (.log m)
  | http {p : HttpProbe} (h : httpFields entries = .valid p) : ConditionOf entries (.http p)
  | delay {n : Nat} (h : delayFields "duration" entries = .valid n) : ConditionOf entries (.delay n)
  | healthcheck : ConditionOf entries .healthcheck
  | all {ms : List Condition}
    (h : required "conditions" (tupleFrom 1 condition) entries = .valid ms) :
    ConditionOf entries (.all ms)

/-- A valid condition is one of the five kinds. -/
theorem conditionOf_of_valid {d : Datum} {c : Condition} (h : condition d = .valid c) :
    ∃ entries, d = .mapping entries ∧ ConditionOf entries c := by
  cases d with
  | mapping entries =>
    rw [condition] at h
    obtain ⟨_, heq, x, hx, hc⟩ := exists_of_tagged h
    cases heq
    refine ⟨entries, rfl, ?_⟩
    simp only [conditionAlternatives, List.map_cons, List.map_nil, List.mem_cons, List.not_mem_nil,
      or_false] at hx
    -- One case for each kind, in the order of the union.
    rcases hx with rfl | rfl | rfl | rfl | rfl
    · obtain ⟨m, hm, rfl⟩ := map_eq_valid.mp hc
      exact .log hm
    · obtain ⟨p, hp, rfl⟩ := map_eq_valid.mp hc
      exact .http hp
    · obtain ⟨n, hn, rfl⟩ := map_eq_valid.mp hc
      exact .delay hn
    · obtain ⟨_, -, rfl⟩ := map_eq_valid.mp hc
      exact .healthcheck
    · rw [allFields, membersField_eq, ← yields_eq_iff, yields_seq, yields_fmap] at hc
      obtain ⟨_, -, ms, hms, rfl⟩ := hc
      exact .all hms
  | _ => simp [condition, Checked.fail] at h

/-- A record that says its kind is of the model of that kind. -/
theorem condition_of_entry {entries : Fields} {word : String} {x : String × Checked Condition}
    (hkind : Datum.entry? "kind" entries = some (.text word))
    (hx : (conditionAlternatives entries (membersField entries)).find? (·.1 == word) = some x) :
    condition (.mapping entries) = x.2.under (.key x.1) := by
  have hmapped : ((conditionAlternatives entries (membersField entries)).map
      fun a => (a.1, fun _ : Fields => a.2)).find? (·.1 == word) = some (x.1, fun _ => x.2) := by
    rw [List.find?_map]
    exact congrArg (Option.map fun a => (a.1, fun _ : Fields => a.2)) hx
  rw [condition]
  exact tagged_of_entry hkind hmapped

/-- The members of a valid group are valid, and there is one at least. -/
theorem members_of_required {entries : Fields} {ms : List Condition}
    (h : required "conditions" (tupleFrom 1 condition) entries = .valid ms) :
    1 ≤ ms.length ∧ ∀ c ∈ ms, ∃ d, condition d = .valid c := by
  obtain ⟨d, hd⟩ := exists_of_required h
  obtain ⟨htuple, hlength⟩ := tupleFrom_eq_valid.mp hd
  exact ⟨hlength, exists_of_mem_list (tuple_eq_valid.mp htuple)⟩

/-- A conjunction is restored if its members are. -/
theorem all_dump {ms : List Condition} (hlength : 1 ≤ ms.length)
    (hms : ∀ c ∈ ms, condition c.dump = .valid c) :
    record "All" (fun fields => allFields fields (membersField fields)) (Condition.all ms).dump =
      .valid (.all ms) := by
  have hmembers : tupleFrom 1 condition (.list (Condition.dumpAll ms)) = .valid ms := by
    rw [dumpAll_eq_map]
    exact tupleFrom_eq_valid.mpr ⟨tuple_eq_valid.mpr (list_dump hms), hlength⟩
  show allFields _ (membersField _) = _
  rw [allFields, membersField_eq, ← yields_eq_iff, yields_seq, yields_fmap]
  exact ⟨_, kind_of_entry rfl, _, (required_of_entry rfl).trans (under_eq_valid.mpr hmembers), rfl⟩

mutual

/-- A condition is restored, its members being restored. -/
theorem condition_dump :
    ∀ (c : Condition) (d : Datum), condition d = .valid c → condition c.dump = .valid c
  | .log m, _, _ => by
    have hm := logMessage_lossless m
    exact (condition_of_entry rfl rfl).trans (under_eq_valid.mpr (map_eq_valid.mpr ⟨m, hm, rfl⟩))
  | .http p, d, h => by
    obtain ⟨entries, -, hof⟩ := conditionOf_of_valid h
    cases hof with
    | http hp =>
      have hp := http_restores (.mapping entries) p hp
      exact (condition_of_entry rfl rfl).trans (under_eq_valid.mpr (map_eq_valid.mpr ⟨p, hp, rfl⟩))
  | .delay n, _, _ => by
    have hn := delay_lossless "Duration" "duration" n
    exact (condition_of_entry rfl rfl).trans (under_eq_valid.mpr (map_eq_valid.mpr ⟨n, hn, rfl⟩))
  | .healthcheck, _, _ => by
    refine (condition_of_entry rfl rfl).trans (under_eq_valid.mpr ?_)
    dsimp only
    exact map_eq_valid.mpr ⟨(), kind_of_entry rfl, rfl⟩
  | .all ms, d, h => by
    obtain ⟨entries, -, hof⟩ := conditionOf_of_valid h
    cases hof with
    | all hms =>
      obtain ⟨hlength, hfrom⟩ := members_of_required hms
      exact (condition_of_entry rfl rfl).trans
        (under_eq_valid.mpr (all_dump hlength (members_dump ms hfrom)))
  | .foreign label, d, h => by
    -- No model of a condition gives one that is foreign.
    obtain ⟨entries, -, hof⟩ := conditionOf_of_valid h
    cases hof

/-- Members that were valid are valid again when they are dumped. -/
theorem members_dump : ∀ cs : List Condition, (∀ c ∈ cs, ∃ d, condition d = .valid c) →
    ∀ c ∈ cs, condition c.dump = .valid c
  | [], _, c, hc => nomatch hc
  | c :: rest, h, c', hc => by
    rcases List.mem_cons.mp hc with heq | hc
    · obtain ⟨d, hd⟩ := h c List.mem_cons_self
      rw [heq]
      exact condition_dump c d hd
    · exact members_dump rest (fun x hx => h x (List.mem_cons_of_mem c hx)) c' hc

end

/-- Conditions are restored. -/
theorem condition_restores : Restores condition Condition.dump := fun d c => condition_dump c d

/-- So are lists of them. -/
theorem conditions_restore : Restores (tuple condition) fun cs => .list (Condition.dumpAll cs) := by
  intro d cs h
  show tuple condition (.list (Condition.dumpAll cs)) = .valid cs
  rw [dumpAll_eq_map]
  exact condition_restores.tuple d cs h

/-- A conjunction is restored by the check of its own model as well. -/
theorem all_restores :
    Restores (record "All" fun fields => allFields fields (membersField fields))
      Condition.dump := by
  intro d c hd
  cases d with
  | mapping entries =>
    have hread : allFields entries (membersField entries) = .valid c := hd
    rw [allFields, membersField_eq, ← yields_eq_iff, yields_seq, yields_fmap] at hread
    obtain ⟨_, -, ms, hms, rfl⟩ := hread
    obtain ⟨hlength, hfrom⟩ := members_of_required hms
    exact all_dump hlength (members_dump ms hfrom)
  | _ => cases hd

/-! ### Completions -/

/-- Completions by exit code are restored. -/
theorem exitCode_restoresAs : RestoresAs "exit_code" exitCodeFields Completion.dump := by
  intro entries c hread
  simp only [← yields_eq_iff, exitCodeFields, yields_seq, yields_fmap] at hread ⊢
  obtain ⟨_, -, code, -, rfl⟩ := hread
  exact ⟨_, rfl, rfl, _, kind_of_entry rfl, code, integer_lossless.optional rfl, rfl⟩

/-- Completions by output are restored. -/
theorem outputMessage_restoresAs :
    RestoresAs "output_message" outputMessageFields Completion.dump := by
  intro entries c hread
  simp only [← yields_eq_iff, outputMessageFields, yields_seq, yields_fmap] at hread ⊢
  obtain ⟨_, -, stream, -, text, -, rfl⟩ := hread
  exact ⟨_, rfl, rfl, _, kind_of_entry rfl, stream, stream_lossless.optional rfl, text,
    nonemptyString_lossless.required rfl, rfl⟩

/-- Completions by a pause are restored. -/
theorem sleep_restoresAs :
    RestoresAs "sleep" (fun fields => (delayFields "sleep" fields).map .sleep) Completion.dump := by
  intro entries c hread
  obtain ⟨n, -, rfl⟩ := map_eq_valid.mp hread
  exact ⟨_, rfl, rfl, map_eq_valid.mpr ⟨n, delay_lossless "CmdSleep" "sleep" n, rfl⟩⟩

/-- So are completions of any kind. -/
theorem completion_restores : Restores completion Completion.dump := by
  refine restores_tagged ?_ (by simp)
  simp only [List.forall_mem_cons, List.not_mem_nil, false_imp_iff, implies_true, and_true]
  exact ⟨exitCode_restoresAs, outputMessage_restoresAs, sleep_restoresAs⟩

/-! ### Steps -/

/-- Texts that may be missing are read back. -/
theorem optionalText_lossless : Lossless (nullable string) (Datum.ofOption .text) :=
  string_lossless.nullable (by simp)

/-- Arguments are restored. -/
theorem argv_restores : Restores (tupleFrom 1 string) (Datum.ofList .text) :=
  string_lossless.restores.tupleFrom 1

/-- Commands are restored. -/
theorem command_restores : Restores command Command.dump := by
  have hcompletion : Restores (nullable completion) (Datum.ofOption Completion.dump) :=
    completion_restores.nullable fun c => by cases c <;> simp [Completion.dump, Datum.record]
  refine restores_record fun entries c hread => ⟨_, rfl, ?_⟩
  simp only [commandFields, yields_seq, yields_fmap] at hread ⊢
  obtain ⟨argv, hargv, completion, hdone, readiness, hready, user, -, workdir, -, description, -,
      rfl⟩ :=
    hread
  exact ⟨_, argv_restores.required hargv rfl, _, hcompletion.optional rfl hdone rfl,
    _, conditions_restore.optional rfl hready rfl, _, optionalText_lossless.optional rfl,
    _, optionalText_lossless.optional rfl, _, optionalText_lossless.optional rfl, rfl⟩

/-- Targets of copies are restored. -/
theorem target_restores : Restores target .text := by
  intro d s hd
  obtain ⟨s', -, hs⟩ := andThen_eq_valid.mp hd
  split at hs
  · cases hs
    rw [target, string_text, Checked.andThen, if_pos ‹_›]
  · cases hs

/-- Copies are restored. -/
theorem payload_restores : Restores payload Payload.dump := by
  refine restores_record fun entries p hread => ⟨_, rfl, ?_⟩
  simp only [payloadFields, yields_seq, yields_fmap] at hread ⊢
  obtain ⟨path, hpath, content, -, mode, -, rfl⟩ := hread
  exact ⟨_, target_restores.required hpath rfl, _, bytes_lossless.required rfl,
    _, integer_lossless.optional rfl, rfl⟩

/-- A source that was read as a step was read as a command or as a payload. -/
theorem step_of_source {d : Datum} {step : Step} (h : source d = .valid (.step step)) :
    (∃ c, step = .command c ∧ command d = .valid c) ∨ ∃ p, step = .copy p ∧
    payload d = .valid p := by
  unfold source at h
  split at h
  · cases h
  · cases hc : command d <;> cases hp : payload d <;> simp only [hc, hp] at h
    · -- Data of both forms is the one of which it sets more fields.
      split at h
      · split at h <;> cases h
        · exact .inr ⟨_, rfl, rfl⟩
        · exact .inl ⟨_, rfl, rfl⟩
      · cases h
        exact .inl ⟨_, rfl, rfl⟩
    · cases h
      exact .inl ⟨_, rfl, rfl⟩
    · cases h
      exact .inr ⟨_, rfl, rfl⟩
    · cases h

/-- What is a command and no copy is a command. -/
theorem source_of_command {entries : Fields} {c : Command}
    (hc : command (.mapping entries) = .valid c)
    (hp : ∀ p, ¬ payload (.mapping entries) = .valid p) :
    source (.mapping entries) = .valid (.step (.command c)) := by
  cases hpayload : payload (.mapping entries) with
  | valid p => exact absurd hpayload (hp p)
  | invalid issues => simp only [source, hc, hpayload]

/-- What is a copy and no command is a copy. -/
theorem source_of_payload {entries : Fields} {p : Payload}
    (hp : payload (.mapping entries) = .valid p)
    (hc : ∀ c, ¬ command (.mapping entries) = .valid c) :
    source (.mapping entries) = .valid (.step (.copy p)) := by
  cases hcommand : command (.mapping entries) with
  | valid c => exact absurd hcommand (hc c)
  | invalid issues => simp only [source, hp, hcommand]

/-- A record of a command has no target, so it is not one of a payload. -/
theorem not_payload_command_dump (c : Command) (p : Payload) : ¬ payload c.dump = .valid p := by
  intro h
  have hread := yields_eq_iff.mpr (show payloadFields _ = .valid p from h)
  simp only [payloadFields, yields_seq, yields_fmap] at hread
  obtain ⟨_, htarget, -⟩ := hread
  exact not_required_of_none rfl htarget

/-- A record of a payload has no command. -/
theorem not_command_payload_dump (p : Payload) (c : Command) : ¬ command p.dump = .valid c := by
  intro h
  have hread := yields_eq_iff.mpr (show commandFields _ = .valid c from h)
  simp only [commandFields, yields_seq, yields_fmap] at hread
  obtain ⟨_, hcmd, -⟩ := hread
  exact not_required_of_none rfl hcmd

/-- So steps are restored. -/
theorem source_restores : Restores source Source.dump := by
  intro d src hd
  cases src with
  | factory make => rfl
  | step step =>
    rcases step_of_source hd with ⟨c, rfl, hc⟩ | ⟨p, rfl, hp⟩
    · exact source_of_command (command_restores d c hc) (not_payload_command_dump c)
    · exact source_of_payload (payload_restores d p hp) (not_command_payload_dump p)

end Slipway.Validation
