import Mathlib.Logic.Function.Basic
import Slipway.Proofs.Text.Cut
import Slipway.Proofs.Text.Digit
import Slipway.Proofs.Text.Integer
import Slipway.Proofs.Validation.Condition
import Slipway.Rendering
import Slipway.Text.Cut

/-!
# `Slipway.Proofs.Port`: the spellings of a port

`Port.IsSpelledBy` says which texts spell a port: before the first slash stands an integer literal
with its number, after it the name of its protocol. After the slash, or without one, nothing stands
for TCP. `parse_text_eq_ok_iff` states that exactly these texts are parsed, and what is parsed is
the port.

The key of a port is one of its spellings (`isSpelledBy_key`), so keys can be parsed, and ports that
share a key are the same. A lookup parses first and goes on with the key of what was parsed, so it
cannot tell the spellings of a port apart. -/

set_option autoImplicit false

namespace Slipway

open Slipway.Text.Integer (Writes Numeral)

/-! ### Numbers in decimal -/

namespace Text.Integer

/-- The value of a digit counts from zero. -/
theorem valueOf?_of_isDigit {c : Char} (h : c.isDigit = true) :
    Digit.valueOf? c = some (c.toNat - '0'.toNat) := by
  have hpoint : 48 ≤ c.toNat ∧ c.toNat ≤ 57 := by
    simp only [Char.isDigit, Bool.and_eq_true, decide_eq_true_eq, UInt32.le_iff_toNat_le] at h
    exact h
  have hfirst : (0x30 ≤ c.toNat && c.toNat < 0x30 + 10) = true := by
    simp
    omega
  have hfind : Digit.zeros.find? (fun z => z ≤ c.toNat && c.toNat < z + 10) = some 0x30 :=
    List.find?_cons_of_pos hfirst
  rw [Digit.valueOf?, hfind]
  rfl

/-- ASCII digits are a numeral. -/
theorem numeral_of_isDigit {s : List Char} (hs : ∀ c ∈ s, c.isDigit = true) (hne : s ≠ []) :
    Numeral s (s.map fun c => c.toNat - '0'.toNat) := by
  induction s with
  | nil => exact absurd rfl hne
  | cons c rest ih =>
    have hc := valueOf?_of_isDigit (hs c List.mem_cons_self)
    cases rest with
    | nil => exact .last hc
    | cons next rest =>
      exact .digit hc
        (ih (fun d hd => hs d (List.mem_cons_of_mem c hd)) (List.cons_ne_nil next rest))

/-- A number in decimal writes it, if it has no more digits than are allowed. -/
theorem writes_toDigits {n : Nat} (h : (Nat.toDigits 10 n).length ≤ maxDigits) :
    Writes (Nat.toDigits 10 n) n := by
  refine ⟨[], [], Nat.toDigits 10 n, [], false, _, by simp, by simp, .none,
    numeral_of_isDigit Digit.isDigit_toDigits Nat.toDigits_ne_nil,
    by simp, by rwa [List.length_map], ?_⟩
  rw [Digit.number_toDigits (by decide) (by decide)]
  rfl

end Text.Integer

/-! ### The checks of a port -/

namespace Validation

open Checked (Yields yields_eq_iff yields_seq yields_fmap under_eq_valid)

/-- A number is a port number if it is in the range. -/
theorem portNumber_int_eq_valid {n : Int} {m : { n : Nat // 1 ≤ n ∧ n ≤ 65535 }} :
    portNumber (.int n) = .valid m ↔ n = m.1 := by
  constructor
  · intro h
    rw [portNumber, integer, Checked.andThen] at h
    -- Below the range, above it, or in it.
    split at h
    · cases h
      show n = (n.toNat : Int)
      omega
    · split at h <;> cases h
  · intro h
    rw [h]
    exact portNumber_lossless m

/-- A text is a protocol if it is its name. -/
theorem protocol_text_eq_valid {s : String} {p : Protocol} :
    named Protocol.all Protocol.name (.text s) = .valid p ↔ s = p.name := by
  constructor
  · intro h
    unfold named at h
    simp only at h
    split at h
    · -- What is found by its name has that name.
      rename_i q hfound
      cases h
      have hname := List.find?_some hfound
      exact (beq_iff_eq.mp hname).symm
    · cases h
  · intro h
    rw [h]
    exact protocol_lossless p

/-- The fields of a port, when both are there. -/
theorem portFields_eq_valid {n : Int} {s : String} {p : Port} :
    portFields [(.text "port", .int n), (.text "protocol", .text s)] = .valid p
      ↔ n = p.number ∧ s = p.protocol.name := by
  rw [← yields_eq_iff]
  simp only [portFields, yields_seq, yields_fmap]
  rw [required_of_entry rfl, optional_of_entry rfl]
  simp only [Yields, under_eq_valid, portNumber_int_eq_valid, protocol_text_eq_valid]
  constructor
  · rintro ⟨m, hm, q, hq, rfl⟩
    exact ⟨hm, hq⟩
  · rintro ⟨hn, hs⟩
    exact ⟨⟨p.number, p.one_le, p.le_max⟩, hn, p.protocol, hs, rfl⟩

/-- The fields of a port, when the protocol is left out. -/
theorem portFields_number_eq_valid {n : Int} {p : Port} :
    portFields [(.text "port", .int n)] = .valid p ↔ n = p.number ∧ p.protocol = .tcp := by
  rw [← yields_eq_iff]
  simp only [portFields, yields_seq, yields_fmap]
  rw [required_of_entry rfl]
  simp only [Yields, under_eq_valid, portNumber_int_eq_valid]
  -- The protocol is left out, so it is the default.
  constructor
  · rintro ⟨m, hm, q, hq, rfl⟩
    cases hq
    exact ⟨hm, rfl⟩
  · rintro ⟨hn, htcp⟩
    refine ⟨⟨p.number, p.one_le, p.le_max⟩, hn, .tcp, rfl, ?_⟩
    rw [← htcp]

end Validation

/-! ### Spellings -/

namespace Port

/-- Whether a text spells a port: an integer literal before the first slash has its number, and
after it stands the name of its protocol, or, for TCP, nothing. -/
def IsSpelledBy (p : Port) (s : String) : Prop :=
  Writes (Text.before '/' s.toList) p.number ∧
    (Text.after '/' s.toList = [] ∧ p.protocol = .tcp ∨
      Text.after '/' s.toList = p.protocol.name.toList)

/-- What a text after the slash stands for is the name of a protocol. -/
theorem protocol_iff {rest : List Char} {p : Protocol} :
    (if rest.isEmpty then "tcp" else String.ofList rest) = p.name ↔
      (rest = [] ∧ p = .tcp ∨ rest = p.name.toList) := by
  cases rest with
  | nil => cases p <;> decide
  | cons c rest =>
    simp only [List.isEmpty_cons, Bool.false_eq_true, if_false, reduceCtorEq, false_and, false_or]
    rw [← String.toList_inj, String.toList_ofList]

/-- A port is read if it passes the validation. -/
theorem parse_eq_ok_iff {d : Datum} {p : Port} :
    parse d = .ok p ↔ Validation.port d = .valid p := by
  unfold parse
  cases Validation.port d <;> simp [Checked.get]

/-- A text is parsed iff it spells a port, and it is that port. -/
theorem parse_text_eq_ok_iff {s : String} {p : Port} :
    parse (.text s) = .ok p ↔ p.IsSpelledBy s := by
  rw [parse_eq_ok_iff]
  simp only [Validation.port, Validation.portShorthand]
  show _ ↔ Writes (Validation.cutAtSlash s.toList).1 _ ∧
    ((Validation.cutAtSlash s.toList).2 = [] ∧ _ ∨ (Validation.cutAtSlash s.toList).2 = _)
  rw [← protocol_iff, ← Text.Integer.literal_eq_ok_iff]
  cases Text.Integer.literal (Validation.cutAtSlash s.toList).1 with
  | error e => simp [Checked.fail]
  | ok n => simp [Validation.portFields_eq_valid]

/-- What cannot be parsed does not fit the model of a port. -/
theorem parse_of_not_ok {d : Datum} (h : ∀ p, ¬ parse d = .ok p) :
    ∃ issues, parse d = .error (.defect (.invalid "ContainerPort" issues)) := by
  unfold parse at h ⊢
  cases hd : Validation.port d with
  | valid p => exact absurd (by rw [hd]; rfl) (h p)
  | invalid issues => exact ⟨issues, rfl⟩

/-- A number is the port of that number of the default protocol. -/
theorem parse_int_eq_ok_iff {n : Int} {p : Port} :
    parse (.int n) = .ok p ↔ n = p.number ∧ p.protocol = .tcp := by
  rw [parse_eq_ok_iff]
  exact Validation.portFields_number_eq_valid

/-! ### Keys -/

/-- The key of a port is its number, a slash and the name of its protocol. -/
theorem toList_key (p : Port) :
    p.key.toList = Nat.toDigits 10 p.number ++ '/' :: p.protocol.name.toList := by
  have hdigits : (toString p.number).toList = Nat.toDigits 10 p.number := Nat.toList_repr
  have hslash : "/".toList = ['/'] := rfl
  simp only [key, String.toList_append, hdigits, hslash, List.append_assoc, List.singleton_append]

/-- The key of a port spells it. -/
theorem isSpelledBy_key (p : Port) : p.IsSpelledBy p.key := by
  have hnoSlash : '/' ∉ Nat.toDigits 10 p.number := fun h =>
    absurd (Text.Digit.isDigit_toDigits _ h) (by decide)
  have hlength : (Nat.toDigits 10 p.number).length ≤ 5 := by
    rw [Nat.length_toDigits_le_iff (by decide) (by decide)]
    have hmax := p.le_max
    omega
  rw [IsSpelledBy, toList_key, Text.before_append_cons hnoSlash, Text.after_append_cons hnoSlash]
  exact ⟨Text.Integer.writes_toDigits (Nat.le_trans hlength (by decide)), .inr rfl⟩

/-- The key of a port is read as the port. -/
theorem parse_key (p : Port) : parse (.text p.key) = .ok p :=
  parse_text_eq_ok_iff.mpr (isSpelledBy_key p)

/-- Ports that share a key are the same. -/
theorem key_injective : Function.Injective key := by
  intro p q h
  have hp : parse (.text p.key) = .ok q := by
    rw [h]
    exact parse_key q
  rw [parse_key] at hp
  exact Except.ok.inj hp

end Port

/-! ### Lookups -/

namespace Container

/-- A lookup goes by the port that is parsed, and not by its spelling. -/
theorem lookup_of_parse {d : Datum} {p : Port} (h : Port.parse d = .ok p) (c : Container) :
    c.lookup d = c.resolve p := by
  rw [lookup, h]

/-- The port of a container is found, or it is not in the table. -/
theorem resolve_cases (c : Container) (p : Port) :
    (∃ n, c.ports.lookup p.key = some n ∧ c.resolve p = .ok n) ∨
      (p.key ∉ c.ports.map Prod.fst ∧
        c.resolve p = .error (.failure (.portNotPublished p.key))) := by
  -- The table has the key, or it has not.
  cases h : c.ports.lookup p.key with
  | some n =>
    left
    exact ⟨n, rfl, by rw [resolve, h]⟩
  | none =>
    right
    refine ⟨?_, by rw [resolve, h]⟩
    intro hmem
    obtain ⟨e, he, hkey⟩ := List.mem_map.mp hmem
    have hne : p.key != e.1 := List.lookup_eq_none_iff.mp h e he
    exact bne_iff_ne.mp hne hkey.symm

/-- A port is not published iff its key is not in the table. -/
theorem resolve_eq_notPublished_iff (c : Container) (p : Port) :
    c.resolve p = .error (.failure (.portNotPublished p.key)) ↔ p.key ∉ c.ports.map Prod.fst := by
  cases resolve_cases c p with
  | inl h =>
    obtain ⟨n, hlookup, hresolve⟩ := h
    have hmem : p.key ∈ c.ports.map Prod.fst := by
      obtain ⟨front, rest, hports, -⟩ := List.lookup_eq_some_iff.mp hlookup
      simp [hports]
    simp [hresolve, hmem]
  | inr h => simp only [h.2, h.1, not_false_eq_true]

end Container

namespace Port

/-- A text is parsed iff it spells a port, and it is that port; any other text does not fit the
model. The key of a port spells it, and no other port has it. A container resolves a port alike by
every spelling, by its number if it is a TCP port, and by the port itself: to the host port that the
table has for the key, or to the failure that the key is not published. The latter happens iff the
table lacks the key. -/
theorem spellings_resolve_alike :
    (∀ (s : String) (p : Port), parse (.text s) = .ok p ↔ p.IsSpelledBy s) ∧
    (∀ s : String, (¬ ∃ p : Port, p.IsSpelledBy s) →
      ∃ issues, parse (.text s) = .error (.defect (.invalid "ContainerPort" issues))) ∧
    (∀ (n : Int) (p : Port), parse (.int n) = .ok p ↔ n = p.number ∧ p.protocol = .tcp) ∧
    (∀ p : Port, parse (.text p.key) = .ok p) ∧
    Function.Injective key ∧
    ∀ (c : Container) (p : Port),
      (∀ s, p.IsSpelledBy s → c.lookup (.text s) = c.resolve p) ∧
      (p.protocol = .tcp → c.lookup (.int p.number) = c.resolve p) ∧
      ((∃ n, c.ports.lookup p.key = some n ∧ c.resolve p = .ok n) ∨
        c.resolve p = .error (.failure (.portNotPublished p.key))) ∧
      (c.resolve p = .error (.failure (.portNotPublished p.key)) ↔
        p.key ∉ c.ports.map Prod.fst) := by
  refine ⟨fun _ _ => parse_text_eq_ok_iff, ?_, fun _ _ => parse_int_eq_ok_iff, parse_key,
    key_injective, ?_⟩
  · -- What spells no port is read as none, so it is refused.
    intro s hnone
    apply parse_of_not_ok
    intro p hp
    exact hnone ⟨p, parse_text_eq_ok_iff.mp hp⟩
  · intro c p
    refine ⟨?_, ?_, ?_, c.resolve_eq_notPublished_iff p⟩
    · intro s hs
      exact Container.lookup_of_parse (parse_text_eq_ok_iff.mpr hs) c
    · intro htcp
      exact Container.lookup_of_parse (parse_int_eq_ok_iff.mpr ⟨rfl, htcp⟩) c
    · cases c.resolve_cases p with
      | inl h => exact .inl h
      | inr h => exact .inr h.2

/-- A container with one published port. -/
def broker : Container := ⟨"c1", "localhost", [("9092/tcp", 32768)], none⟩

/-- Blanks, a sign, an underscore and an empty protocol at one port. -/
theorem spellings_resolve_alike_at_a_broker :
    (tcp 9092).IsSpelledBy " +9_092 /" ∧
    broker.lookup (.text " +9_092 /") = .ok 32768 ∧
    broker.lookup (.int 9092) = .ok 32768 ∧
    broker.lookup (.text "9092/udp") = .error (.failure (.portNotPublished "9092/udp")) := by
  obtain ⟨hparse, -, -, -, -, hresolve⟩ := spellings_resolve_alike
  have htcp : (tcp 9092).IsSpelledBy " +9_092 /" := (hparse " +9_092 /" (tcp 9092)).mp rfl
  have hudp : (⟨9092, .udp, by decide, by decide⟩ : Port).IsSpelledBy "9092/udp" :=
    (hparse "9092/udp" _).mp rfl
  obtain ⟨htext, hnumber, -, -⟩ := hresolve broker (tcp 9092)
  refine ⟨htcp, htext _ htcp, hnumber rfl, ?_⟩
  rw [(hresolve broker _).1 _ hudp]
  rfl

end Port
end Slipway
