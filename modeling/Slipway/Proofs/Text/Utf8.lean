import Mathlib.Data.List.Infix
import Slipway.Text.Utf8

/-!
# `Slipway.Proofs.Text.Utf8`: looking for a text in bytes that may be no text

`decodeLossy` reads any bytes, with a replacement character for whatever is no character. A text can
be looked for in what it reads, or the bytes of the text in the bytes that are read.
`infix_decodeLossy_iff` says that this is the same, for a text that is not empty and has no
replacement character itself.

Both directions rest on one step of the reader:

* `front_spec`: what is read off the front is one byte with bytes after it that continue a
  character. If it is read as a character, these bytes are how that character is written.
* `front_encodeChar`: a character that is written is read, and its first byte continues none.

So the first byte of a character is never swallowed by what stands before it, be that ever so
malformed: `tail_prefix_of_eq` cuts the bytes there, and the reader is in step again
(`infix_decodeLossy`).
-/

set_option autoImplicit false

namespace Slipway.Text.Utf8

/-! ### Bytes -/

/-- A number that is the value of a byte gives that byte. -/
theorem toUInt8_eq {b : UInt8} {n : Nat} (h : n = b.toNat) : n.toUInt8 = b := by
  subst h
  exact UInt8.ofNat_toNat

/-- A number below 256 is the value of its byte. -/
theorem toNat_toUInt8 {n : Nat} (h : n < 0x100) : n.toUInt8.toNat = n := by
  show n % 0x100 = n
  omega

/-- A code point that is no surrogate is that of its character. -/
theorem toNat_ofNat_of_valid {n : Nat} (h : n < 0xD800 ∨ 0xDFFF < n ∧ n < 0x110000) :
    (Char.ofNat n).toNat = n := by
  have hv : n.isValidChar := h
  rw [Char.ofNat, dif_pos hv]
  rfl

/-- Continuation bytes are those from 0x80 to 0xBF. -/
theorem isContinuation_iff {b : UInt8} :
    isContinuation b = true ↔ 0x80 ≤ b.toNat ∧ b.toNat ≤ 0xBF := by
  simp [isContinuation, UInt8.le_iff_toNat_le]

/-- All others are none. -/
theorem isContinuation_eq_false_iff {b : UInt8} :
    isContinuation b = false ↔ ¬ (0x80 ≤ b.toNat ∧ b.toNat ≤ 0xBF) := by
  rw [Bool.eq_false_iff, Ne, isContinuation_iff]

/-! ### First bytes -/

/-- The first byte of a longer character says how long it is and between which bytes the second
lies. -/
theorem lead?_cases {b lo hi : UInt8} {n : Nat} (h : lead? b = some (n, lo, hi)) :
    (n = 2 ∧ 0xC2 ≤ b.toNat ∧ b.toNat ≤ 0xDF ∧ lo.toNat = 0x80 ∧ hi.toNat = 0xBF) ∨
    (n = 3 ∧ 0xE0 ≤ b.toNat ∧ b.toNat ≤ 0xEF ∧ 0x80 ≤ lo.toNat ∧ hi.toNat ≤ 0xBF ∧
      (b.toNat = 0xE0 → lo.toNat = 0xA0) ∧ (b.toNat = 0xED → hi.toNat = 0x9F)) ∨
    (n = 4 ∧ 0xF0 ≤ b.toNat ∧ b.toNat ≤ 0xF4 ∧ 0x80 ≤ lo.toNat ∧ hi.toNat ≤ 0xBF ∧
      (b.toNat = 0xF0 → lo.toNat = 0x90) ∧ (b.toNat = 0xF4 → hi.toNat = 0x8F)) := by
  simp only [lead?, Bool.and_eq_true, decide_eq_true_eq, UInt8.le_iff_toNat_le,
    ← UInt8.toNat_inj, UInt8.reduceToNat] at h
  -- One case for each range of the table, and one for the bytes that are in none.
  repeat' split at h
  all_goals cases h
  all_goals simp [*]
  all_goals omega

/-- Bytes from 0xC2 to 0xDF lead two. -/
theorem lead?_two {b : UInt8} (hlo : 0xC2 ≤ b.toNat) (hhi : b.toNat ≤ 0xDF) :
    lead? b = some (2, 0x80, 0xBF) := by
  have hb : (0xC2 ≤ b && b ≤ 0xDF) = true := by
    simp only [Bool.and_eq_true, decide_eq_true_eq, UInt8.le_iff_toNat_le]
    exact ⟨hlo, hhi⟩
  rw [lead?, if_pos hb]

/-- Bytes from 0xE0 to 0xEF lead three, with a second byte that is neither overlong nor a surrogate.
-/
theorem lead?_three {b : UInt8} (hlo : 0xE0 ≤ b.toNat) (hhi : b.toNat ≤ 0xEF) :
    lead? b = some (3, if b.toNat = 0xE0 then 0xA0 else 0x80,
      if b.toNat = 0xED then 0x9F else 0xBF) := by
  simp only [lead?, Bool.and_eq_true, decide_eq_true_eq, UInt8.le_iff_toNat_le,
    ← UInt8.toNat_inj, UInt8.reduceToNat]
  rw [if_neg (by omega)]
  by_cases hE0 : b.toNat = 0xE0
  · simp [hE0]
  · rw [if_neg hE0, if_neg hE0]
    by_cases hED : b.toNat = 0xED
    · rw [if_pos hED, if_pos hED]
    · rw [if_neg hED, if_neg hED, if_pos (by omega)]

/-- Bytes from 0xF0 to 0xF4 lead four, with a second byte that stays within the range. -/
theorem lead?_four {b : UInt8} (hlo : 0xF0 ≤ b.toNat) (hhi : b.toNat ≤ 0xF4) :
    lead? b = some (4, if b.toNat = 0xF0 then 0x90 else 0x80,
      if b.toNat = 0xF4 then 0x8F else 0xBF) := by
  simp only [lead?, Bool.and_eq_true, decide_eq_true_eq, UInt8.le_iff_toNat_le,
    ← UInt8.toNat_inj, UInt8.reduceToNat]
  rw [if_neg (by omega), if_neg (by omega), if_neg (by omega), if_neg (by omega)]
  by_cases hF0 : b.toNat = 0xF0
  · simp [hF0]
  · rw [if_neg hF0, if_neg hF0]
    by_cases hF4 : b.toNat = 0xF4
    · rw [if_neg (by omega), if_pos hF4, if_pos hF4]
    · rw [if_pos (by omega), if_neg hF4]

section
variable {b b₁ b₂ b₃ lo hi : UInt8} {n : Nat}

/-- A leading byte is not ASCII. -/
theorem not_lt_of_lead? (h : lead? b = some (n, lo, hi)) : ¬ b < 0x80 := by
  intro hlt
  have hlt' : b.toNat < 0x80 := hlt
  have hb := lead?_cases h
  omega

/-- A second byte is accepted if it is between the bounds. -/
theorem within_iff : ¬ (!(decide (lo ≤ b) && decide (b ≤ hi))) = true ↔
    lo.toNat ≤ b.toNat ∧ b.toNat ≤ hi.toNat := by
  simp [UInt8.le_iff_toNat_le]

/-- A second byte within its bounds continues a character. -/
theorem isContinuation_of_lead? (h : lead? b = some (n, lo, hi))
    (h₁ : lo.toNat ≤ b₁.toNat ∧ b₁.toNat ≤ hi.toNat) : isContinuation b₁ = true := by
  have hb := lead?_cases h
  rw [isContinuation_iff]
  omega

/-! ### Characters that are read, written again -/

/-- An ASCII byte encodes its character. -/
theorem encodeChar_one (hb : b.toNat < 0x80) : encodeChar (Char.ofNat b.toNat) = [b] := by
  unfold encodeChar
  rw [toNat_ofNat_of_valid (by omega)]
  simp only
  rw [if_pos hb, toUInt8_eq rfl]

/-- Two bytes encode the character that they are read as. -/
theorem encodeChar_two (hb : lead? b = some (2, lo, hi))
    (h₁ : lo.toNat ≤ b₁.toNat ∧ b₁.toNat ≤ hi.toNat) :
    encodeChar (Char.ofNat (b.toNat % 0x20 * 0x40 + payload b₁)) = [b, b₁] := by
  have hb := lead?_cases hb
  unfold encodeChar payload
  rw [toNat_ofNat_of_valid (by omega)]
  simp only
  rw [if_neg (by omega), if_pos (by omega), toUInt8_eq (b := b) (by omega),
    toUInt8_eq (b := b₁) (by omega)]

/-- So do three bytes. -/
theorem encodeChar_three (hb : lead? b = some (3, lo, hi))
    (h₁ : lo.toNat ≤ b₁.toNat ∧ b₁.toNat ≤ hi.toNat) (h₂ : isContinuation b₂ = true) :
    encodeChar (Char.ofNat ((b.toNat % 0x10 * 0x40 + payload b₁) * 0x40 + payload b₂))
      = [b, b₁, b₂] := by
  have hb := lead?_cases hb
  rw [isContinuation_iff] at h₂
  unfold encodeChar payload
  -- The bounds on the second byte shut out overlong forms and surrogates.
  rw [toNat_ofNat_of_valid (by omega)]
  simp only
  rw [if_neg (by omega), if_neg (by omega), if_pos (by omega), toUInt8_eq (b := b) (by omega),
    toUInt8_eq (b := b₁) (by omega), toUInt8_eq (b := b₂) (by omega)]

/-- So do four bytes. -/
theorem encodeChar_four (hb : lead? b = some (4, lo, hi))
    (h₁ : lo.toNat ≤ b₁.toNat ∧ b₁.toNat ≤ hi.toNat) (h₂ : isContinuation b₂ = true)
    (h₃ : isContinuation b₃ = true) :
    encodeChar (Char.ofNat (((b.toNat % 8 * 0x40 + payload b₁) * 0x40 + payload b₂) * 0x40
      + payload b₃)) = [b, b₁, b₂, b₃] := by
  have hb := lead?_cases hb
  rw [isContinuation_iff] at h₂ h₃
  unfold encodeChar payload
  rw [toNat_ofNat_of_valid (by omega)]
  simp only
  -- The character is too large for one, two or three bytes.
  rw [if_neg (by omega), if_neg (by omega), if_neg (by omega), toUInt8_eq (b := b) (by omega),
    toUInt8_eq (b := b₁) (by omega), toUInt8_eq (b := b₂) (by omega),
    toUInt8_eq (b := b₃) (by omega)]

/-! ### Characters that are written, read again -/

/-- Two well-formed bytes are read as their character. -/
theorem front_two (h : lead? b = some (2, lo, hi)) (h₁ : lo.toNat ≤ b₁.toNat ∧ b₁.toNat ≤ hi.toNat)
    (more : Bytes) :
    front b (b₁ :: more) = .char (Char.ofNat (b.toNat % 0x20 * 0x40 + payload b₁)) 2 := by
  rw [front, if_neg (not_lt_of_lead? h), h]
  simp only
  rw [if_neg (within_iff.mpr h₁), if_pos trivial]

/-- So are three bytes. -/
theorem front_three (h : lead? b = some (3, lo, hi))
    (h₁ : lo.toNat ≤ b₁.toNat ∧ b₁.toNat ≤ hi.toNat) (h₂ : isContinuation b₂ = true)
    (more : Bytes) :
    front b (b₁ :: b₂ :: more)
      = .char (Char.ofNat ((b.toNat % 0x10 * 0x40 + payload b₁) * 0x40 + payload b₂)) 3 := by
  rw [front, if_neg (not_lt_of_lead? h), h]
  simp only
  rw [if_neg (within_iff.mpr h₁), if_neg (by decide), if_neg (by simp [h₂]), if_pos trivial]

/-- So are four bytes. -/
theorem front_four (h : lead? b = some (4, lo, hi))
    (h₁ : lo.toNat ≤ b₁.toNat ∧ b₁.toNat ≤ hi.toNat) (h₂ : isContinuation b₂ = true)
    (h₃ : isContinuation b₃ = true) (more : Bytes) :
    front b (b₁ :: b₂ :: b₃ :: more)
      = .char (Char.ofNat (((b.toNat % 8 * 0x40 + payload b₁) * 0x40 + payload b₂) * 0x40
        + payload b₃)) 4 := by
  rw [front, if_neg (not_lt_of_lead? h), h]
  simp only
  rw [if_neg (within_iff.mpr h₁), if_neg (by decide), if_neg (by simp [h₂]), if_neg (by decide),
    if_neg (by simp [h₃])]

end

/-- A character that is written is read off the front again, and its first byte continues none. -/
theorem front_encodeChar (c : Char) (more : Bytes) :
    ∃ b tail, encodeChar c = b :: tail ∧ isContinuation b = false ∧
      front b (tail ++ more) = .char c (tail.length + 1) := by
  have hv : c.toNat < 0xD800 ∨ 0xDFFF < c.toNat ∧ c.toNat < 0x110000 := c.valid
  have hc : ∀ {n : Nat}, n = c.toNat → Char.ofNat n = c := by
    rintro n rfl
    exact Char.ofNat_toNat c
  unfold encodeChar
  simp only
  split
  · rename_i hone
    have hb := toNat_toUInt8 (n := c.toNat) (by omega)
    refine ⟨_, [], rfl, isContinuation_eq_false_iff.mpr (by omega), ?_⟩
    -- One byte.
    have hlt : c.toNat.toUInt8 < 0x80 := by
      rw [UInt8.lt_iff_toNat_lt, hb]
      exact hone
    rw [front, if_pos hlt, hc hb]
    rfl
  split
  · have hb := toNat_toUInt8 (n := 0xC0 + c.toNat / 0x40) (by omega)
    have hb₁ := toNat_toUInt8 (n := 0x80 + c.toNat % 0x40) (by omega)
    refine ⟨_, [_], rfl, isContinuation_eq_false_iff.mpr (by omega), ?_⟩
    -- Two bytes: the payloads of both give the character back.
    have hl := lead?_two (b := (0xC0 + c.toNat / 0x40).toUInt8) (by omega) (by omega)
    show front _ (_ :: more) = _
    rw [front_two hl (by simp only [UInt8.reduceToNat]; omega), hc (by unfold payload; omega)]
    rfl
  split
  · have hb := toNat_toUInt8 (n := 0xE0 + c.toNat / 0x1000) (by omega)
    have hb₁ := toNat_toUInt8 (n := 0x80 + c.toNat / 0x40 % 0x40) (by omega)
    have hb₂ := toNat_toUInt8 (n := 0x80 + c.toNat % 0x40) (by omega)
    refine ⟨_, [_, _], rfl, isContinuation_eq_false_iff.mpr (by omega), ?_⟩
    -- Three bytes: the second one keeps away from overlong forms and from surrogates.
    have hl := lead?_three (b := (0xE0 + c.toNat / 0x1000).toUInt8) (by omega) (by omega)
    show front _ (_ :: _ :: more) = _
    rw [front_three hl (by constructor <;> split <;> simp only [UInt8.reduceToNat] <;> omega)
      (isContinuation_iff.mpr (by omega)), hc (by unfold payload; omega)]
    rfl
  · have hb := toNat_toUInt8 (n := 0xF0 + c.toNat / 0x40000) (by omega)
    have hb₁ := toNat_toUInt8 (n := 0x80 + c.toNat / 0x1000 % 0x40) (by omega)
    have hb₂ := toNat_toUInt8 (n := 0x80 + c.toNat / 0x40 % 0x40) (by omega)
    have hb₃ := toNat_toUInt8 (n := 0x80 + c.toNat % 0x40) (by omega)
    refine ⟨_, [_, _, _], rfl, isContinuation_eq_false_iff.mpr (by omega), ?_⟩
    -- Four bytes: the second one keeps within the range of characters.
    have hl := lead?_four (b := (0xF0 + c.toNat / 0x40000).toUInt8) (by omega) (by omega)
    show front _ (_ :: _ :: _ :: more) = _
    rw [front_four hl (by constructor <;> split <;> simp only [UInt8.reduceToNat] <;> omega)
      (isContinuation_iff.mpr (by omega)) (isContinuation_iff.mpr (by omega)),
      hc (by unfold payload; omega)]
    rfl

/-! ### One step of a reader -/

/-- How many bytes stand at the front. -/
def Front.length : Front → Nat
  | .char _ n => n
  | .fault _ n => n

/-- What a reader that never fails makes of the front. -/
def Front.shown : Front → Char
  | .char c _ => c
  | .fault _ _ => '\uFFFD'

/-- What is read off the front is a byte with those after it that continue it. If it is a character,
they are how it is written. -/
theorem front_spec (b : UInt8) (rest : Bytes) :
    ∃ tail after, rest = tail ++ after ∧ (∀ x ∈ tail, isContinuation x = true) ∧
      (front b rest).length = tail.length + 1 ∧
      ∀ c n, front b rest = .char c n → encodeChar c = b :: tail := by
  fun_cases front b rest with
  | case1 =>
    refine ⟨[], rest, rfl, by simp, rfl, ?_⟩
    rintro c n ⟨⟩
    exact encodeChar_one ‹_›
  | case2 | case3 | case4 => exact ⟨[], _, rfl, by simp, rfl, by simp⟩
  | case5 hb lo hi b₁ after h₁ hl =>
    have hw := within_iff.mp h₁
    refine ⟨[b₁], after, rfl, by simpa using isContinuation_of_lead? hl hw, rfl, ?_⟩
    rintro c n ⟨⟩
    exact encodeChar_two hl hw
  | case6 hb n lo hi hl b₁ h₁ | case7 hb n lo hi hl b₁ h₁ =>
    have hc₁ := isContinuation_of_lead? hl (within_iff.mp h₁)
    exact ⟨[b₁], _, rfl, by simpa using hc₁, rfl, by simp⟩
  | case8 hb lo hi b₁ h₁ b₂ after h₂ hl =>
    have hw := within_iff.mp h₁
    have hc₁ := isContinuation_of_lead? hl hw
    have hc₂ : isContinuation b₂ = true := by simpa using h₂
    refine ⟨[b₁, b₂], after, rfl, by simp [hc₁, hc₂], rfl, ?_⟩
    rintro c n ⟨⟩
    exact encodeChar_three hl hw hc₂
  | case9 hb n lo hi hl b₁ h₁ hn b₂ h₂ | case10 hb n lo hi hl b₁ h₁ hn b₂ h₂ =>
    have hc₁ := isContinuation_of_lead? hl (within_iff.mp h₁)
    have hc₂ : isContinuation b₂ = true := by simpa using h₂
    exact ⟨[b₁, b₂], _, rfl, by simp [hc₁, hc₂], rfl, by simp⟩
  | case11 hb n lo hi hl b₁ h₁ hn₂ b₂ h₂ hn₃ b₃ after h₃ =>
    have hw := within_iff.mp h₁
    have hc₁ := isContinuation_of_lead? hl hw
    have hc₂ : isContinuation b₂ = true := by simpa using h₂
    have hc₃ : isContinuation b₃ = true := by simpa using h₃
    -- A longer character that has neither two nor three bytes has four.
    obtain rfl : n = 4 := by
      have := lead?_cases hl
      omega
    refine ⟨[b₁, b₂, b₃], after, rfl, by simp [hc₁, hc₂, hc₃], rfl, ?_⟩
    rintro c n ⟨⟩
    exact encodeChar_four hl hw hc₂ hc₃

/-- Decoding shows what is in front and goes on behind it. -/
theorem decodeLossy_cons (b : UInt8) (rest : Bytes) :
    decodeLossy (b :: rest)
      = (front b rest).shown :: decodeLossy (rest.drop ((front b rest).length - 1)) := by
  rw [decodeLossy]
  cases front b rest <;> rfl

/-! ### Texts in bytes -/

/-- What is written is read again. -/
theorem decodeFrom_encode (at_ : Nat) (s : List Char) : decodeFrom at_ (encode s) = .ok s := by
  induction s generalizing at_ with
  | nil => exact decodeFrom.eq_1 at_
  | cons c rest ih =>
    obtain ⟨b, tail, hc, -, hfront⟩ := front_encodeChar c (encode rest)
    have hbytes : encode (c :: rest) = b :: (tail ++ encode rest) := by
      simp [encode, hc]
    rw [hbytes, decodeFrom, hfront]
    show (decodeFrom _ ((tail ++ encode rest).drop tail.length)).map (c :: ·) = _
    rw [List.drop_left, ih]
    rfl

/-- A text that was encoded is decoded. -/
theorem toString?_ofString (s : String) : toString? (ofString s) = .ok s := by
  show (decodeFrom 0 (encode s.toList)).map String.ofList = _
  rw [decodeFrom_encode]
  simp [Except.map]

/-- Different texts are written differently. -/
theorem ofString_inj {s t : String} : ofString s = ofString t ↔ s = t := by
  refine ⟨fun h => ?_, congrArg ofString⟩
  have hread := congrArg toString? h
  rw [toString?_ofString, toString?_ofString] at hread
  exact Except.ok.inj hread

/-- Texts are encoded one after the other. -/
theorem ofString_append (s t : String) : ofString (s ++ t) = ofString s ++ ofString t := by
  simp [ofString, encode]

/-- Below 128 a character is written as one byte. -/
theorem encode_of_ascii {s : List Char} (h : ∀ c ∈ s, c.toNat < 0x80) :
    encode s = s.map fun c => UInt8.ofNat c.toNat := by
  induction s with
  | nil => rfl
  | cons c rest ih =>
    have hc : encodeChar c = [UInt8.ofNat c.toNat] := if_pos (h c (by simp))
    have hrest := ih fun d hd => h d (List.mem_cons_of_mem c hd)
    rw [List.map_cons, ← hrest]
    show encodeChar c ++ encode rest = _
    rw [hc]
    rfl

/-- What was encoded is decoded in front of whatever follows. -/
theorem decodeLossy_encode_append (s : List Char) (more : Bytes) :
    decodeLossy (encode s ++ more) = s ++ decodeLossy more := by
  induction s with
  | nil => rfl
  | cons c rest ih =>
    obtain ⟨b, tail, hc, -, hfront⟩ := front_encodeChar c (encode rest ++ more)
    have hbytes : encode (c :: rest) ++ more = b :: (tail ++ (encode rest ++ more)) := by
      simp [encode, hc]
    rw [hbytes, decodeLossy_cons, hfront]
    show c :: decodeLossy ((tail ++ (encode rest ++ more)).drop tail.length) = _
    rw [List.drop_left, ih]
    rfl

/-- A text that is read first is written first: none of its characters stands for a fault. -/
theorem encode_prefix_encode {s : List Char} (hs : '\uFFFD' ∉ s) {bs : Bytes}
    (h : s <+: decodeLossy bs) : encode s <+: bs := by
  -- By the characters: none is a replacement, so each was read from its own bytes.
  induction s generalizing bs with
  | nil => exact List.nil_prefix
  | cons c rest ih =>
    cases bs with
    | nil =>
      rw [decodeLossy] at h
      simp at h
    | cons b after =>
      obtain ⟨tail, more, rfl, -, hlength, hchar⟩ := front_spec b after
      rw [decodeLossy_cons, hlength, Nat.add_sub_cancel, List.drop_left, List.cons_prefix_cons] at h
      obtain ⟨hshown, hrest⟩ := h
      rw [List.mem_cons, not_or] at hs
      cases hfront : front b (tail ++ more) with
      | fault kind n =>
        rw [hfront] at hshown
        exact absurd hshown.symm hs.1
      | char c' n =>
        rw [hfront] at hshown
        obtain rfl : c = c' := hshown
        obtain ⟨after, hafter⟩ := ih hs.2 hrest
        refine ⟨after, ?_⟩
        rw [← hafter]
        simp [encode, hchar c n hfront]

/-- A text without replacements that is found in the decoded text was there in bytes. -/
theorem encode_infix_encode {s : List Char} (hs : '\uFFFD' ∉ s) {bs : Bytes}
    (h : s <:+: decodeLossy bs) : encode s <:+: bs := by
  -- The induction is on the steps of the reader: the text is read at this one or after it.
  induction hn : bs.length using Nat.strongRecOn generalizing bs with
  | ind n ih =>
    cases bs with
    | nil =>
      rw [decodeLossy, List.infix_nil] at h
      rw [h]
      exact List.nil_infix
    | cons b after =>
      have hcut := decodeLossy_cons b after
      rcases List.infix_cons_iff.mp (hcut ▸ h) with hfirst | hlater
      · exact (encode_prefix_encode hs (hcut ▸ hfirst)).isInfix
      · have hshorter : (after.drop ((front b after).length - 1)).length < n := by
          rw [List.length_drop, ← hn, List.length_cons]
          omega
        have hrest : encode s <:+: after.drop ((front b after).length - 1) :=
          ih _ hshorter hlater rfl
        have hdrop : after.drop ((front b after).length - 1) <:+ b :: after :=
          (List.drop_suffix _ _).trans (List.suffix_cons b after)
        exact hrest.trans hdrop.isInfix

/-- Bytes that continue a character end before the next one begins. -/
theorem tail_prefix_of_eq {tail more p q : Bytes} (htail : ∀ x ∈ tail, isContinuation x = true)
    (hq : ∀ x ∈ q.head?, isContinuation x = false) (h : p ++ q = tail ++ more) :
    ∃ u, p = tail ++ u ∧ more = u ++ q := by
  rcases List.append_eq_append_iff.mp h with ⟨u, rfl, rfl⟩ | ⟨u, rfl, rfl⟩
  · cases u with
    | nil => exact ⟨[], by simp, rfl⟩
    | cons x u =>
      have hx := htail x (by simp)
      rw [hq x (by simp)] at hx
      cases hx
  · exact ⟨u, rfl, rfl⟩

/-- Whatever stands before a text that is written, the text is read. -/
theorem infix_decodeLossy {s : List Char} (hs : s ≠ []) (before more : Bytes) :
    s <:+: decodeLossy (before ++ (encode s ++ more)) := by
  induction hn : before.length using Nat.strongRecOn generalizing before with
  | ind n ih =>
    cases before with
    | nil =>
      rw [List.nil_append, decodeLossy_encode_append]
      exact (List.prefix_append s _).isInfix
    | cons b after =>
      have hstart : ∀ x ∈ (encode s ++ more).head?, isContinuation x = false := by
        obtain ⟨c, rest, rfl⟩ := List.exists_cons_of_ne_nil hs
        obtain ⟨b, tail, hc, hb, -⟩ := front_encodeChar c []
        simpa [encode, hc] using hb
      -- What is read off the front ends before the text, so the rest of what stood there is
      -- shorter.
      obtain ⟨tail, later, hsplit, htail, hlength, -⟩ := front_spec b (after ++ (encode s ++ more))
      obtain ⟨u, rfl, rfl⟩ := tail_prefix_of_eq htail hstart hsplit
      rw [List.cons_append, decodeLossy_cons, hlength, Nat.add_sub_cancel, List.append_assoc,
        List.drop_left]
      have hshorter : u.length < n := by
        rw [← hn, List.length_cons, List.length_append]
        omega
      exact (ih _ hshorter u rfl).trans (List.suffix_cons _ _).isInfix

/-- A text occurs in what bytes are read as iff its bytes occur in them. -/
theorem infix_decodeLossy_iff {s : List Char} (hs : s ≠ []) (hr : '\uFFFD' ∉ s) {bs : Bytes} :
    s <:+: decodeLossy bs ↔ encode s <:+: bs := by
  constructor
  · exact encode_infix_encode hr
  · rintro ⟨before, more, rfl⟩
    rw [List.append_assoc]
    exact infix_decodeLossy hs before more

end Slipway.Text.Utf8
