/-!
# `Slipway.Text.Utf8`: text as bytes

Two readers of UTF-8. `decode` is strict and names the first fault: its kind and the bytes that are
at fault. `decodeLossy` never fails: each maximal run of bytes that begins a character but does not
complete it, and each byte that begins none, becomes one replacement character.

Both are built on `step`, which reads one character or one fault off the front.
-/

set_option autoImplicit false

namespace Slipway.Text.Utf8

/-- Bytes, as a list. -/
abbrev Bytes := List UInt8

/-- Why bytes are not UTF-8. -/
inductive FaultKind where
  /-- A byte that begins no character. -/
  | invalidStart
  /-- A byte that should have continued a character does not. -/
  | invalidContinuation
  /-- The bytes end inside a character. -/
  | unexpectedEnd
deriving DecidableEq, Repr

/-- A fault: the `length` bytes from `start` on are no character; `first` is the first of them. -/
structure Fault where
  kind : FaultKind
  start : Nat
  length : Nat
  first : UInt8
deriving DecidableEq, Repr

namespace FaultKind

/-- The words for a kind of fault. -/
def text : FaultKind → String
  | invalidStart => "invalid start byte"
  | invalidContinuation => "invalid continuation byte"
  | unexpectedEnd => "unexpected end of data"

end FaultKind

/-- What stands at the front of some bytes. -/
inductive Front where
  /-- A character, written in `length` bytes. -/
  | char (c : Char) (length : Nat)
  /-- `length` bytes that are no character. -/
  | fault (kind : FaultKind) (length : Nat)
deriving DecidableEq, Repr

/-- Whether a byte continues a character. -/
def isContinuation (b : UInt8) : Bool := 0x80 ≤ b && b ≤ 0xBF

/-- How many bytes a character that starts with `b` has, and which bytes may follow first; `none`
if no character starts with it. Overlong forms, surrogates and code points above U+10FFFF are shut
out by the bounds on the second byte. -/
def lead? (b : UInt8) : Option (Nat × UInt8 × UInt8) :=
  if 0xC2 ≤ b && b ≤ 0xDF then some (2, 0x80, 0xBF)
  else if b = 0xE0 then some (3, 0xA0, 0xBF)
  else if b = 0xED then some (3, 0x80, 0x9F)
  else if 0xE1 ≤ b && b ≤ 0xEF then some (3, 0x80, 0xBF)
  else if b = 0xF0 then some (4, 0x90, 0xBF)
  else if 0xF1 ≤ b && b ≤ 0xF3 then some (4, 0x80, 0xBF)
  else if b = 0xF4 then some (4, 0x80, 0x8F)
  else none

/-- The low six bits of a continuation byte. -/
def payload (b : UInt8) : Nat := b.toNat % 0x40

/-- The character or fault at the front of a byte and those after it. -/
def front (b : UInt8) (rest : Bytes) : Front :=
  if b < 0x80 then .char (Char.ofNat b.toNat) 1
  else match lead? b with
  | none => .fault .invalidStart 1
  | some (n, lo, hi) =>
    match rest with
    | [] => .fault .unexpectedEnd 1
    | b₁ :: rest₁ =>
      if !(lo ≤ b₁ && b₁ ≤ hi) then .fault .invalidContinuation 1
      else if n = 2 then .char (Char.ofNat (b.toNat % 0x20 * 0x40 + payload b₁)) 2
      else match rest₁ with
      | [] => .fault .unexpectedEnd 2
      | b₂ :: rest₂ =>
        if !isContinuation b₂ then .fault .invalidContinuation 2
        else if n = 3 then
          .char (Char.ofNat ((b.toNat % 0x10 * 0x40 + payload b₁) * 0x40 + payload b₂)) 3
        else match rest₂ with
        | [] => .fault .unexpectedEnd 3
        | b₃ :: _ =>
          if !isContinuation b₃ then .fault .invalidContinuation 3
          else .char (Char.ofNat (((b.toNat % 8 * 0x40 + payload b₁) * 0x40 + payload b₂) * 0x40
            + payload b₃)) 4

/-- Reads bytes that stand `at_` bytes into their text. -/
def decodeFrom (at_ : Nat) : Bytes → Except Fault (List Char)
  | [] => .ok []
  | b :: rest =>
    match front b rest with
    | .char c n => (decodeFrom (at_ + n) (rest.drop (n - 1))).map (c :: ·)
    | .fault kind n => .error { kind, start := at_, length := n, first := b }
termination_by bs => bs.length
decreasing_by simp only [List.length_cons, List.length_drop]; omega

/-- The text that bytes write, or the first fault. -/
def decode (bs : Bytes) : Except Fault (List Char) := decodeFrom 0 bs

/-- The text that bytes write, with U+FFFD for each fault. -/
def decodeLossy : Bytes → List Char
  | [] => []
  | b :: rest =>
    match front b rest with
    | .char c n => c :: decodeLossy (rest.drop (n - 1))
    | .fault _ n => Char.ofNat 0xFFFD :: decodeLossy (rest.drop (n - 1))
termination_by bs => bs.length
decreasing_by all_goals (simp only [List.length_cons, List.length_drop]; omega)

/-- The bytes of one character. -/
def encodeChar (c : Char) : Bytes :=
  let n := c.toNat
  if n < 0x80 then [n.toUInt8]
  else if n < 0x800 then [(0xC0 + n / 0x40).toUInt8, (0x80 + n % 0x40).toUInt8]
  else if n < 0x10000 then
    [(0xE0 + n / 0x1000).toUInt8, (0x80 + n / 0x40 % 0x40).toUInt8, (0x80 + n % 0x40).toUInt8]
  else
    [(0xF0 + n / 0x40000).toUInt8, (0x80 + n / 0x1000 % 0x40).toUInt8,
      (0x80 + n / 0x40 % 0x40).toUInt8, (0x80 + n % 0x40).toUInt8]

/-- The bytes of a text. -/
def encode (s : List Char) : Bytes := s.flatMap encodeChar

/-- The bytes of a string. -/
def ofString (s : String) : Bytes := encode s.toList

theorem encodeChar_ne_nil (c : Char) : encodeChar c ≠ [] := by
  unfold encodeChar
  simp only
  split <;> (try split) <;> (try split) <;> simp

theorem encode_ne_nil {s : List Char} (h : s ≠ []) : encode s ≠ [] := by
  cases s with
  | nil => exact absurd rfl h
  | cons c rest => simp [encode, encodeChar_ne_nil]

theorem ofString_ne_nil {s : String} (h : s ≠ "") : ofString s ≠ [] := by
  apply encode_ne_nil
  intro h'
  exact h (by simpa using h')

/-- The string that bytes write, with U+FFFD for each fault. -/
def toStringLossy (bs : Bytes) : String := String.ofList (decodeLossy bs)

/-- The string that bytes write, or the first fault. -/
def toString? (bs : Bytes) : Except Fault String := (decode bs).map String.ofList

/-- What a message says of a fault. -/
def Fault.message (f : Fault) : String :=
  let hex := String.ofList (Nat.toDigits 16 f.first.toNat)
  let last := f.start + f.length - 1
  if f.length = 1 then
    "'utf-8' codec can't decode byte 0x" ++ hex ++ " in position " ++ toString f.start ++ ": "
      ++ f.kind.text
  else
    "'utf-8' codec can't decode bytes in position " ++ toString f.start ++ "-" ++ toString last
      ++ ": " ++ f.kind.text

end Slipway.Text.Utf8
