import Slipway.Condition
import Slipway.Proofs.Text.Quoted

/-!
# `Slipway.Proofs.Condition`: what a description tells of its condition

The description of a message, of a delay and of the healthcheck shows all there is to the condition
(`Condition.IsFullyDescribed`); that of an HTTP probe leaves out what the answer has to say. No
other condition of a known kind is described as such a one is (`Condition.eq_of_describe_eq`): the
first letter tells the kind, and what follows tells the rest. -/

set_option autoImplicit false

namespace Slipway

/-- The names of the streams are of one length, so a text after a name can be told from the name. -/
theorem Stream.name_append_inj {s s' : Stream} {text text' : String} :
    s.name ++ text = s'.name ++ text' ↔ s = s' ∧ text = text' := by
  refine ⟨fun h => ?_, by rintro ⟨rfl, rfl⟩; rfl⟩
  cases s <;> cases s' <;> simp [name, String.ext_iff] at h ⊢
  · exact h
  · exact h

/-- A message is told by its description: its stream first, and then its text in quotes. -/
theorem LogMessage.describe_inj {m n : LogMessage} : m.describe = n.describe ↔ m = n := by
  refine ⟨fun h => ?_, congrArg describe⟩
  obtain ⟨stream, text, _⟩ := m
  obtain ⟨stream', text', _⟩ := n
  simp only [describe, String.append_assoc] at h
  obtain ⟨rfl, hrest⟩ := Stream.name_append_inj.mp h
  obtain rfl : text = text' := Text.Quoted.ofString_inj.mp ((String.append_right_inj _).mp hrest)
  rfl

namespace Condition

open Slipway.Text.Digit (number_toDigits)

/-- A delay is described by its milliseconds. -/
theorem describe_delay (millis : Nat) :
    (delay millis).describe = "fixed delay of " ++ toString millis ++ "ms" := rfl

/-- A conjunction is described by its members. -/
theorem describe_all (members : List Condition) :
    (all members).describe = "all of [" ++ ", ".intercalate (describeAll members) ++ "]" := rfl

/-- A delay is told by its description. -/
theorem describe_delay_inj {m n : Nat} : (delay m).describe = (delay n).describe ↔ m = n := by
  refine ⟨fun h => ?_, fun h => congrArg (describe ∘ delay) h⟩
  rw [describe_delay, describe_delay, String.append_left_inj, String.append_right_inj] at h
  -- The digits of a number are read as that number.
  have hdigits : Nat.toDigits 10 m = Nat.toDigits 10 n := by
    rw [← Nat.toList_repr, ← Nat.toList_repr]
    exact congrArg String.toList h
  rw [← number_toDigits (by decide) (Nat.le_refl 10) m, hdigits,
    number_toDigits (by decide) (Nat.le_refl 10) n]

/-- The letter with which a description begins. -/
def initial? : Condition → Option Char
  | log _ => 's'
  | http _ => 'H'
  | delay _ => 'f'
  | healthcheck => 'r'
  | all _ => 'a'
  | foreign label => label.toList.head?

/-- The first character of a description tells the kind. -/
theorem head?_describe (c : Condition) : c.describe.toList.head? = c.initial? := by
  cases c with
  | log m =>
    show m.describe.toList.head? = some 's'
    cases hs : m.stream <;> simp [LogMessage.describe, Stream.name, hs]
  | http p =>
    show p.describe.toList.head? = some 'H'
    simp [HttpProbe.describe]
  | delay millis => simp [describe_delay, initial?]
  | healthcheck => rfl
  | all members => simp [describe_all, initial?]
  | foreign label => rfl

/-- Conditions that are described alike begin alike. -/
theorem initial?_eq_of_describe_eq {a b : Condition} (h : a.describe = b.describe) :
    a.initial? = b.initial? := by
  rw [← head?_describe, h, head?_describe]

/-- Whether the description of a condition shows all there is to it. -/
def IsFullyDescribed : Condition → Prop
  | log _ => True
  | delay _ => True
  | healthcheck => True
  | _ => False

/-- What is fully described is told by its description from every other condition of a known kind.
-/
theorem eq_of_describe_eq {a b : Condition} (ha : a.IsFullyDescribed)
    (hb : ∀ label, b ≠ .foreign label) (h : a.describe = b.describe) : a = b := by
  have hinitial := initial?_eq_of_describe_eq h
  -- Descriptions of two kinds differ in their first character, and within a kind they are
  -- injective.
  cases a with
  | log m =>
    cases b with
    | log n => exact congrArg log (LogMessage.describe_inj.mp h)
    | foreign label => exact absurd rfl (hb label)
    | _ => simp [initial?] at hinitial
  | delay m =>
    cases b with
    | delay n => exact congrArg delay (describe_delay_inj.mp h)
    | foreign label => exact absurd rfl (hb label)
    | _ => simp [initial?] at hinitial
  | healthcheck =>
    cases b with
    | healthcheck => rfl
    | foreign label => exact absurd rfl (hb label)
    | _ => simp [initial?] at hinitial
  | http p => exact ha.elim
  | all members => exact ha.elim
  | foreign label => exact ha.elim

end Condition
end Slipway
