import Slipway.Proofs.Text.Cut
import Slipway.Proofs.Text.Digit
import Slipway.Proofs.Text.Internet
import Slipway.Text.Url

/-!
# `Slipway.Proofs.Text.Url`: the host that a URL names

`Names` says how a URL names a host: a name, which may be a version 4 address, stands as it is, and
a version 6 address stands in brackets, since its colons would be taken for that of a port.
`NamesHost` puts a whole URL together from its scheme, user, host, port and what follows them, with
no more in any part than may stand there. Such a URL is parsed, and its host is the one that it
names (`parse_of_namesHost`).

`components` cuts any text into scheme, authority and path by the delimiters alone. It is not the
parser that is used, and it says what others will make of a URL that was put together. -/

set_option autoImplicit false

namespace Slipway.Url

open Slipway.Text (before after afterLast before_append_cons before_of_not_mem after_append_cons
  afterLast_append_cons afterLast_of_not_mem)
open Slipway.Text.Digit (hexValue?)
open Slipway.Text.Internet (isLong isShort mem_of_isLong colon_mem_of_isLong isShort_of_isLong)

/-! ### How a URL is written -/

/-- The marks that stand for themselves in every part of a URL: `!`, `$`, `&` to `.` but for the
slash, `;`, `=`, `_` and `~`. -/
def marks : List Nat :=
  [0x21, 0x24, 0x26, 0x27, 0x28, 0x29, 0x2A, 0x2B, 0x2C, 0x2D, 0x2E, 0x3B, 0x3D, 0x5F, 0x7E]

/-- Whether a character stands for itself in every part of a URL: letters, digits and some marks. -/
def isPlain (c : Char) : Bool := c.isAlphanum || marks.contains c.toNat

/-- Texts of characters of some kind and of bytes, each a percent sign and two hexadecimal digits.
-/
inductive IsEncoded (isAllowed : Char → Bool) : List Char → Prop where
  | nil : IsEncoded isAllowed []
  | char {c : Char} {s : List Char} (hc : isAllowed c = true) (hs : IsEncoded isAllowed s) :
      IsEncoded isAllowed (c :: s)
  | byte {a b : Char} {s : List Char} (ha : (hexValue? a).isSome = true)
      (hb : (hexValue? b).isSome = true) (hs : IsEncoded isAllowed s) :
      IsEncoded isAllowed ('%' :: a :: b :: s)

/-- What a URL has to say to name a host. -/
inductive Names : List Char → List Char → Prop where
  | name {host : List Char} (h : IsEncoded isPlain host) : Names host host
  | address {host : List Char} (h : isLong host = true) (hzone : '%' ∉ host) :
      Names ('[' :: (host ++ [']'])) host

/-- The part of a URL that says who a user is, if there is one. -/
inductive IsUser : List Char → Prop where
  | none : IsUser []
  | some {user : List Char} (h : IsEncoded (fun c => isPlain c || c == ':') user) :
    IsUser (user ++ ['@'])

/-- The part of a URL that says which port it is, if there is one. -/
inductive IsPort : List Char → Prop where
  | none : IsPort []
  | some {digits : List Char} (h : ∀ c ∈ digits, c.isDigit = true) : IsPort (':' :: digits)

variable {c : Char} {s user written host port : List Char}

/-! ### Plain characters -/

/-- Letters and digits by their code points. -/
theorem isAlphanum_iff : c.isAlphanum = true ↔
    48 ≤ c.toNat ∧ c.toNat ≤ 57 ∨ 65 ≤ c.toNat ∧ c.toNat ≤ 90 ∨ 97 ≤ c.toNat ∧ c.toNat ≤ 122 := by
  have hval : c.toNat = c.val.toNat := rfl
  show ((decide (65 ≤ c.val ∧ c.val ≤ 90) || (97 ≤ c.val && c.val ≤ 122)) ||
    (48 ≤ c.val && c.val ≤ 57)) = true ↔ _
  simp only [Bool.or_eq_true, Bool.and_eq_true, decide_eq_true_eq, UInt32.le_iff_toNat_le, hval]
  show (65 ≤ c.val.toNat ∧ c.val.toNat ≤ 90 ∨ 97 ≤ c.val.toNat ∧ c.val.toNat ≤ 122) ∨
    48 ≤ c.val.toNat ∧ c.val.toNat ≤ 57 ↔ _
  omega

/-- A hexadecimal digit is plain. -/
theorem isPlain_of_hexValue? (h : (hexValue? c).isSome = true) : isPlain c = true := by
  have halnum : c.isAlphanum = true := by
    have hval : c.toNat = c.val.toNat := rfl
    rw [isAlphanum_iff]
    simp only [hexValue?, Bool.and_eq_true, decide_eq_true_eq, Char.le_def,
      UInt32.le_iff_toNat_le] at h
    -- A decimal digit, a small letter, or a capital.
    split at h
    case isTrue hdigit => exact .inl hdigit
    case isFalse =>
      split at h
      case isTrue hsmall => exact .inr (.inr ⟨hsmall.1, Nat.le_trans hsmall.2 (by decide)⟩)
      case isFalse =>
        split at h
        case isTrue hlarge => exact .inr (.inl ⟨hlarge.1, Nat.le_trans hlarge.2 (by decide)⟩)
        case isFalse => cases h
  rw [isPlain, halnum]
  rfl

/-- A digit is plain. -/
theorem isPlain_of_isDigit (h : c.isDigit = true) : isPlain c = true := by
  rw [isPlain, Char.isAlphanum, h, Bool.or_true]
  rfl

/-- What is plain is ASCII. -/
theorem toNat_lt_of_isPlain (h : isPlain c = true) : c.toNat < 0x80 := by
  rw [isPlain, Bool.or_eq_true, isAlphanum_iff] at h
  rcases h with h | h
  · omega
  · have hmarks : ∀ n ∈ marks, n < 0x80 := by decide
    exact hmarks _ (by simpa using h)

/-- A plain character is plain in small letters. -/
theorem isPlain_toLower (h : isPlain c = true) : isPlain c.toLower = true := by
  unfold Char.toLower
  split
  -- A capital becomes a small letter, which is plain too.
  case isTrue hupper =>
    have hlow : 65 ≤ c.val.toNat := hupper.1
    have hhigh : c.val.toNat ≤ 90 := hupper.2
    have hsum : (c.val + ('a'.val - 'A'.val)).toNat = c.val.toNat + 32 := by
      rw [UInt32.toNat_add]
      show (c.val.toNat + 32) % 2 ^ 32 = _
      omega
    rw [isPlain, Bool.or_eq_true]
    refine .inl (isAlphanum_iff.mpr (.inr (.inr ?_)))
    show 97 ≤ (c.val + ('a'.val - 'A'.val)).toNat ∧ (c.val + ('a'.val - 'A'.val)).toNat ≤ 122
    omega
  case isFalse => exact h

/-! ### The characters of the parts -/

/-- Whether a character may stand in a host, and in an authority. -/
def inHost (c : Char) : Bool := isPlain c || c == '%' || c == ':'
def inAuthority (c : Char) : Bool := inHost c || c == '@' || c == '[' || c == ']'

/-- What is plain may stand in a host. -/
theorem inHost_of_isPlain (h : isPlain c = true) : inHost c = true := by
  rw [inHost, h]
  rfl

/-- What may stand in a host may stand in an authority. -/
theorem inAuthority_of_inHost (h : inHost c = true) : inAuthority c = true := by
  rw [inAuthority, h]
  rfl

/-- A character of another kind than all of a text is not in it. -/
theorem not_mem_of_kind {isOfKind : Char → Bool} {d : Char} (h : ∀ c ∈ s, isOfKind c = true)
    (hd : isOfKind d = false) : d ∉ s := by
  intro hmem
  rw [h d hmem] at hd
  cases hd

/-- Where bytes may stand, a percent sign and plain characters may. -/
theorem IsEncoded.of_mem {isAllowed : Char → Bool} (h : IsEncoded isAllowed s) :
    ∀ c ∈ s, isAllowed c = true ∨ isPlain c = true ∨ c = '%' := by
  -- By the encoding: a character of its own, or a percent sign with two digits.
  induction h with
  | nil => simp
  | char hc hs ih =>
    intro d hd
    rcases List.mem_cons.mp hd with rfl | hd
    · exact .inl hc
    · exact ih d hd
  | byte ha hb hs ih =>
    intro d hd
    simp only [List.mem_cons] at hd
    rcases hd with rfl | rfl | rfl | hd
    · exact .inr (.inr rfl)
    · exact .inr (.inl (isPlain_of_hexValue? ha))
    · exact .inr (.inl (isPlain_of_hexValue? hb))
    · exact ih d hd

/-- An encoded text is plain but for its percent signs. -/
theorem plain_of_isEncoded (h : IsEncoded isPlain s) : ∀ c ∈ s, (isPlain c || c == '%') = true := by
  intro c hc
  rcases h.of_mem c hc with hplain | hplain | rfl
  · rw [hplain]; rfl
  · rw [hplain]; rfl
  · rfl

/-- A text that is allowed throughout is encoded as it is. -/
theorem isEncoded_of_all {isAllowed : Char → Bool} (h : s.all isAllowed = true) :
    IsEncoded isAllowed s := by
  induction s with
  | nil => exact .nil
  | cons c rest ih =>
    rw [List.all_cons, Bool.and_eq_true] at h
    exact .char h.1 (ih h.2)

/-- An encoded name has no colon. -/
theorem colon_not_mem_of_isEncoded (h : IsEncoded isPlain s) : ':' ∉ s :=
  not_mem_of_kind (plain_of_isEncoded h) (by decide)

/-- The characters of a version 6 address. -/
theorem colons_of_isLong (h : isLong s = true) (hzone : '%' ∉ s) :
    ∀ c ∈ s, (isPlain c || c == ':') = true := by
  intro c hc
  rcases mem_of_isLong h hzone c hc with hhex | rfl | rfl
  · rw [isPlain_of_hexValue? hhex]
    rfl
  · rfl
  · rfl

/-- What is named may stand in a host. -/
theorem Names.inHost (h : Names written host) : ∀ c ∈ host, inHost c = true := by
  intro c hc
  unfold Url.inHost
  cases h with
  | name h => rw [plain_of_isEncoded h c hc]; rfl
  | address h hzone =>
    have hc := colons_of_isLong h hzone c hc
    simp only [Bool.or_eq_true] at hc ⊢
    rcases hc with hplain | hcolon
    · exact .inl (.inl hplain)
    · exact .inr hcolon

/-- There is a colon in a version 6 address only. -/
theorem Names.colon_mem_iff (h : Names written host) :
    ':' ∈ host ↔ written = '[' :: (host ++ [']']) := by
  cases h with
  | name h =>
    refine ⟨fun hmem => absurd hmem (colon_not_mem_of_isEncoded h), fun heq => ?_⟩
    have hlength := congrArg List.length heq
    simp only [List.length_cons, List.length_append, List.length_nil] at hlength
    omega
  | address h hzone => exact ⟨fun _ => rfl, fun _ => colon_mem_of_isLong h hzone⟩

/-- What names it may stand in an authority. -/
theorem Names.inAuthority (h : Names written host) : ∀ c ∈ written, inAuthority c = true := by
  intro c hc
  have hhost : c ∈ host →
      Url.inAuthority c = true := fun hc => inAuthority_of_inHost (h.inHost c hc)
  cases h with
  | name h => exact hhost hc
  | address h hzone =>
    rcases List.mem_cons.mp hc with rfl | hc
    · rfl
    · rcases List.mem_append.mp hc with hc | hc
      · exact hhost hc
      · rw [List.mem_singleton.mp hc]
        rfl

/-- No host is written with an at sign. -/
theorem Names.at_not_mem (h : Names written host) : '@' ∉ written := by
  have hhost : '@' ∉ host := not_mem_of_kind h.inHost (by decide)
  cases h with
  | name h => exact hhost
  | address h hzone =>
    intro hmem
    rcases List.mem_cons.mp hmem with h | hmem
    · cases h
    · rcases List.mem_append.mp hmem with hmem | hmem
      · exact hhost hmem
      · cases List.mem_singleton.mp hmem

/-- No host has a delimiter in it. -/
theorem not_delimiter_of_inHost (h : inHost c = true) : c ∉ ['/', '?', '#'] := by
  intro hmem
  simp only [List.mem_cons, List.not_mem_nil, or_false] at hmem
  rcases hmem with rfl | rfl | rfl <;> exact absurd h (by decide)

/-- A port may stand behind a host. -/
theorem IsPort.inHost (h : IsPort port) : ∀ c ∈ port, inHost c = true := by
  cases h with
  | none => simp
  | some h =>
    intro c hc
    rcases List.mem_cons.mp hc with rfl | hc
    · rfl
    · exact inHost_of_isPlain (isPlain_of_isDigit (h c hc))

/-- What stands before the at sign of a user is of the characters of hosts. -/
theorem IsUser.cases (h : IsUser user) :
    user = [] ∨ ∃ front, user = front ++ ['@'] ∧ ∀ c ∈ front, inHost c = true := by
  cases h with
  | none => exact .inl rfl
  | some h =>
    refine .inr ⟨_, rfl, fun c hc => ?_⟩
    unfold Url.inHost
    rcases h.of_mem c hc with hallowed | hplain | rfl
    · simp only [Bool.or_eq_true] at hallowed ⊢
      exact hallowed.imp .inl id
    · rw [hplain]; rfl
    · rfl

/-- A user may stand before a host. -/
theorem IsUser.inAuthority (h : IsUser user) : ∀ c ∈ user, inAuthority c = true := by
  rcases h.cases with rfl | ⟨front, rfl, hfront⟩
  · simp
  · intro c hc
    rcases List.mem_append.mp hc with hc | hc
    · exact inAuthority_of_inHost (hfront c hc)
    · rw [List.mem_singleton.mp hc]
      rfl

/-- No user is written with a bracket. -/
theorem IsUser.not_mem (h : IsUser user) : '[' ∉ user ∧ ']' ∉ user := by
  rcases h.cases with rfl | ⟨front, rfl, hfront⟩
  · simp
  · have hopen : '[' ∉ front := not_mem_of_kind hfront (by decide)
    have hclose : ']' ∉ front := not_mem_of_kind hfront (by decide)
    simp [hopen, hclose]

/-! ### The host of an authority -/

section
variable (huser : IsUser user) (hnames : Names written host) (hport : IsPort port)
include huser hnames hport

/-- So the whole may stand in an authority. -/
theorem inAuthority_authority : ∀ c ∈ user ++ written ++ port, inAuthority c = true := by
  intro c hc
  rcases List.mem_append.mp hc with hc | hc
  · rcases List.mem_append.mp hc with hc | hc
    · exact huser.inAuthority c hc
    · exact hnames.inAuthority c hc
  · exact inAuthority_of_inHost (hport.inHost c hc)

/-- No character of it is one that splitting would change. -/
theorem not_ambiguous :
    (user ++ written ++ port).any (fun c => ambiguous.contains c.toNat) = false := by
  have hascii : ∀ c, inAuthority c = true → c.toNat < 0x80 := by
    intro c hc
    simp only [inAuthority, inHost, Bool.or_eq_true, beq_iff_eq] at hc
    rcases hc with ((((hplain | rfl) | rfl) | rfl) | rfl) | rfl
    · exact toNat_lt_of_isPlain hplain
    all_goals decide
  -- What is ambiguous is beyond ASCII throughout.
  have hwide : ∀ n ∈ ambiguous, 0x80 ≤ n := by decide
  rw [List.any_eq_false]
  intro c hc hmem
  have hlow := hascii c (inAuthority_authority huser hnames hport c hc)
  have hhigh := hwide c.toNat (List.contains_iff_mem.mp hmem)
  omega

/-- There is nothing wrong with an authority that names a host. -/
theorem authorityDefect?_eq_none : authorityDefect? (user ++ written ++ port) = none := by
  have hunambiguous := not_ambiguous huser hnames hport
  have hopenPort : '[' ∉ port := not_mem_of_kind hport.inHost (by decide)
  have hclosePort : ']' ∉ port := not_mem_of_kind hport.inHost (by decide)
  have hopenHost : '[' ∉ host := not_mem_of_kind hnames.inHost (by decide)
  have hcloseHost : ']' ∉ host := not_mem_of_kind hnames.inHost (by decide)
  obtain ⟨hopenUser, hcloseUser⟩ := huser.not_mem
  unfold authorityDefect?
  cases hnames with
  | name h =>
    have hopen : (user ++ written ++ port).contains '[' = false := by
      simp [hopenUser, hopenHost, hopenPort]
    have hclose : (user ++ written ++ port).contains ']' = false := by
      simp [hcloseUser, hcloseHost, hclosePort]
    simp only [hopen, hclose, hunambiguous]
    rfl
  | address h hzone =>
    have hparts : user ++ '[' :: (host ++ [']']) ++ port =
        user ++ '[' :: (host ++ ']' :: port) := by simp
    have hopen : (user ++ '[' :: (host ++ ']' :: port)).contains '[' = true := by simp
    have hclose : (user ++ '[' :: (host ++ ']' :: port)).contains ']' = true := by simp
    -- There is no `v` in an address, so it is not taken for one of a later version.
    have hsound : bracketDefect? host = none := by
      unfold bracketDefect?
      split
      · exact absurd (mem_of_isLong h hzone 'v' (by simp)) (by decide)
      · rw [isShort_of_isLong h hzone, h]
        rfl
    rw [hparts] at hunambiguous ⊢
    simp only [hopen, hclose, after_append_cons hopenUser, before_append_cons hcloseHost, hsound,
      hunambiguous]
    rfl

end

/-- A host as it is said of a URL that names it: in small letters up to a percent sign. -/
def small (host : List Char) : List Char :=
  (before '%' host).flatMap Text.Lowercase.ofChar ++ host.dropWhile (· != '%')

/-- The host of an authority is the one that it names. -/
theorem host?_of_authority {u : Url} (huser : IsUser user) (hnames : Names written host)
    (hport : IsPort port) (hauthority : u.authority = user ++ written ++ port) :
    u.host? = if host = [] then none else some (String.ofList (small host)) := by
  have hatPort : '@' ∉ port := not_mem_of_kind hport.inHost (by decide)
  have hat : '@' ∉ written ++ port := by simp [hnames.at_not_mem, hatPort]
  -- A user ends at the last at sign, since there is none in what follows.
  have hhostAndPort : u.hostAndPort = written ++ port := by
    rw [hostAndPort, hauthority]
    rcases huser.cases with rfl | ⟨front, rfl, -⟩
    · exact afterLast_of_not_mem hat
    · rw [List.append_assoc, List.append_assoc]
      exact afterLast_append_cons hat
  -- A name goes up to the colon of the port, and an address up to its closing bracket.
  have hhost : (if (written ++ port).contains '[' then before ']' (after '[' (written ++ port))
      else before ':' (written ++ port)) = host := by
    cases hnames with
    | name h =>
      have hopenHost : '[' ∉ written := not_mem_of_kind (plain_of_isEncoded h) (by decide)
      have hopenPort : '[' ∉ port := not_mem_of_kind hport.inHost (by decide)
      have hcolon : ':' ∉ written := colon_not_mem_of_isEncoded h
      rw [if_neg (by simp [hopenHost, hopenPort])]
      cases hport with
      | none => rw [List.append_nil, before_of_not_mem hcolon]
      | some hdigits => exact before_append_cons hcolon _
    | address h hzone =>
      have hcloseHost : ']' ∉ host := not_mem_of_kind (colons_of_isLong h hzone) (by decide)
      have hparts : '[' :: (host ++ [']']) ++ port = [] ++ '[' :: (host ++ ']' :: port) := by simp
      rw [if_pos (by simp), hparts, after_append_cons (by simp), before_append_cons hcloseHost]
  unfold host?
  simp only [hhostAndPort, hhost]
  cases host with
  | nil => rfl
  | cons c rest =>
    rw [if_neg (by simp), if_neg (by simp)]
    refine congrArg some (String.toList_inj.mp ?_)
    simp only [Text.Lowercase.ofString, String.toList_append, String.toList_ofList, small]

/-- A name is a name in small letters. -/
theorem isEncoded_small (h : IsEncoded isPlain host) : IsEncoded isPlain (small host) := by
  -- Up to the zone; from the first percent sign on nothing is made small.
  induction h with
  | nil => exact .nil
  | @char c s hc hs ih =>
    have hmark : (c != '%') = true := by
      rw [bne_iff_ne]
      rintro rfl
      exact absurd hc (by decide)
    have hsmall : small (c :: s) = c.toLower :: small s := by
      have hone : Text.Lowercase.ofChar c = [c.toLower] := if_pos (toNat_lt_of_isPlain hc)
      simp only [small, before, List.takeWhile_cons, List.dropWhile_cons, hmark, if_true,
        List.flatMap_cons,
        hone]
      rfl
    rw [hsmall]
    exact .char (isPlain_toLower hc) ih
  | byte ha hb hs ih => exact .byte ha hb hs

/-- A version 6 address keeps its colons. -/
theorem colon_mem_small (h : ':' ∈ host) (hzone : '%' ∉ host) : ':' ∈ small host := by
  unfold small
  rw [before_of_not_mem hzone]
  exact List.mem_append_left _ (List.mem_flatMap.mpr ⟨':', h, by decide⟩)

/-- A host in small letters is a host. -/
theorem inHost_small (h : ∀ c ∈ host, inHost c = true) : ∀ c ∈ small host, inHost c = true := by
  intro c hc
  rcases List.mem_append.mp hc with hc | hc
  · obtain ⟨d, hd, hc⟩ := List.mem_flatMap.mp hc
    have hd := h d ((List.takeWhile_sublist _).mem hd)
    simp only [inHost, Bool.or_eq_true, beq_iff_eq] at hd
    -- Plain characters are made small one by one; a percent sign and a colon stay.
    rcases hd with (hplain | rfl) | rfl
    · rw [Text.Lowercase.ofChar, if_pos (toNat_lt_of_isPlain hplain)] at hc
      rw [List.mem_singleton.mp hc]
      exact inHost_of_isPlain (isPlain_toLower hplain)
    · rw [List.mem_singleton.mp (show c ∈ ['%'] from hc)]
      rfl
    · rw [List.mem_singleton.mp (show c ∈ [':'] from hc)]
      rfl
  · exact h c ((List.dropWhile_sublist _).mem hc)

/-! ### URLs that name a host -/

/-- Whether a URL of a scheme names a host: after the scheme come two slashes, a user or not, the
host, a port or not, and then whatever begins with a delimiter. -/
def NamesHost (scheme url host : List Char) : Prop :=
  ∃ user written port rest, url = scheme ++ ':' :: '/' :: '/' :: (user ++ written ++ port ++ rest) ∧
    IsUser user ∧ Names written host ∧ IsPort port ∧
    ∀ c, rest.head? = some c → c = '/' ∨ c = '?' ∨ c = '#'

/-- Where an authority ends. -/
def endsAuthority (c : Char) : Bool := c == '/' || c == '?' || c == '#'

/-- An authority ends where the path, the query or the fragment begins. -/
theorem splitAuthority_append {authority rest : List Char}
    (h : ∀ c ∈ authority, inAuthority c = true)
    (hrest : ∀ c, rest.head? = some c → endsAuthority c = true) :
    splitAuthority ('/' :: '/' :: (authority ++ rest)) = (authority, rest) := by
  have hinside : ∀ c ∈ authority, (!endsAuthority c) = true := by
    intro c hc
    have hkind := h c hc
    rw [Bool.not_eq_true', Bool.eq_false_iff]
    intro hends
    simp only [endsAuthority, Bool.or_eq_true, beq_iff_eq] at hends
    rcases hends with (rfl | rfl) | rfl <;> exact absurd hkind (by decide)
  -- What follows begins with a delimiter, so nothing of it is taken.
  have htake : rest.takeWhile (!endsAuthority ·) = [] := by
    cases rest with
    | nil => rfl
    | cons c rest => simp [hrest c rfl]
  have hdrop : rest.dropWhile (!endsAuthority ·) = rest := by
    cases rest with
    | nil => rfl
    | cons c rest => simp [hrest c rfl]
  show ((authority ++ rest).takeWhile (!endsAuthority ·),
      (authority ++ rest).dropWhile (!endsAuthority ·)) = _
  rw [List.takeWhile_append_of_pos hinside, List.dropWhile_append_of_pos hinside, htake, hdrop,
    List.append_nil]

/-- Whether a character is kept where a text is read as a URL. -/
def isKept (c : Char) : Bool := c != '\t' && c != '\r' && c != '\n'

/-- What stands in an authority is no control character. -/
theorem isKept_of_inAuthority (h : inAuthority c = true) : isKept c = true := by
  simp only [isKept, Bool.and_eq_true, bne_iff_ne]
  refine ⟨⟨?_, ?_⟩, ?_⟩ <;> rintro rfl <;> exact absurd h (by decide)

section
variable {scheme : List Char} (hne : scheme ≠ []) (hletters : ∀ c ∈ scheme, c.isAlpha = true)
include hne hletters

/-- A scheme of letters ends at the colon. -/
theorem splitScheme_append (rest : List Char) :
    splitScheme (scheme ++ ':' :: rest) = (String.ofList (scheme.map Char.toLower), rest) := by
  have hcolon : ':' ∉ scheme := fun h => absurd (hletters ':' h) (by decide)
  -- Letters may stand in a scheme, also as its first character.
  have hall : scheme.all inScheme = true := by
    rw [List.all_eq_true]
    intro c hc
    rw [inScheme, Char.isAlphanum, hletters c hc]
    rfl
  obtain ⟨c, more, rfl⟩ := List.exists_cons_of_ne_nil hne
  have hfirst : c.isAlpha = true := hletters c List.mem_cons_self
  unfold splitScheme
  simp only [before_append_cons hcolon, after_append_cons hcolon, hall, hfirst]
  rw [if_pos (by simp)]

/-- What is dropped before a URL is read can only stand behind its authority. -/
theorem cleaned_append {authority : List Char} (h : ∀ c ∈ authority, inAuthority c = true)
    (rest : List Char) :
    cleaned (scheme ++ ':' :: '/' :: '/' :: (authority ++ rest)) =
      scheme ++ ':' :: '/' :: '/' :: (authority ++ rest.filter isKept) := by
  have hscheme : ∀ c ∈ scheme, isKept c = true := by
    intro c hc
    have hplain : isPlain c = true := by
      rw [isPlain, Char.isAlphanum, hletters c hc]
      rfl
    exact isKept_of_inAuthority (inAuthority_of_inHost (inHost_of_isPlain hplain))
  obtain ⟨first, more, rfl⟩ := List.exists_cons_of_ne_nil hne
  -- The scheme begins with a letter, so nothing is stripped from the front.
  have hfirst : ¬first.toNat ≤ 0x20 := by
    have halnum : first.isAlphanum = true := by
      rw [Char.isAlphanum, hletters first List.mem_cons_self]
      rfl
    rw [isAlphanum_iff] at halnum
    omega
  show List.filter isKept (List.dropWhile _ _) = _
  rw [List.cons_append, List.dropWhile_cons_of_neg (by simpa using hfirst), ← List.cons_append,
    List.filter_append, List.filter_eq_self.mpr hscheme]
  show _ ++ ':' :: '/' :: '/' :: List.filter isKept (authority ++ rest) = _
  rw [List.filter_append, List.filter_eq_self.mpr fun c hc => isKept_of_inAuthority (h c hc)]

/-- A URL that names a host is parsed, and that host is found. -/
theorem parse_of_namesHost {text : String} (h : NamesHost scheme text.toList host) :
    ∃ u, parse text = .ok u ∧ u.scheme = String.ofList (scheme.map Char.toLower) ∧
      u.host? = if host = [] then none else some (String.ofList (small host)) := by
  obtain ⟨user, written, port, rest, htext, huser, hnames, hport, hrest⟩ := h
  obtain ⟨authority, hauthority⟩ : ∃ a, a = user ++ written ++ port := ⟨_, rfl⟩
  have hkind := inAuthority_authority huser hnames hport
  have hdefect := authorityDefect?_eq_none huser hnames hport
  rw [← hauthority] at hkind hdefect htext
  -- What is dropped from the rest is no delimiter, so the authority ends where it did.
  have hends : ∀ c, (rest.filter isKept).head? = some c → endsAuthority c = true := by
    intro c hc
    cases rest with
    | nil => cases hc
    | cons d rest =>
      have hd := hrest d rfl
      have hkept : isKept d = true := by rcases hd with rfl | rfl | rfl <;> rfl
      rw [List.filter_cons_of_pos hkept, List.head?_cons, Option.some.injEq] at hc
      rw [← hc]
      rcases hd with rfl | rfl | rfl <;> rfl
  obtain ⟨u, hu⟩ : ∃ u : Url, u = ⟨String.ofList (scheme.map Char.toLower), authority,
    before '?' (before '#' (rest.filter isKept)), after '?' (before '#' (rest.filter isKept)),
    after '#' (rest.filter isKept)⟩ := ⟨_, rfl⟩
  have hscheme : u.scheme = String.ofList (scheme.map Char.toLower) := by rw [hu]
  have hparts : u.authority = user ++ written ++ port := by rw [hu, hauthority]
  refine ⟨u, ?_, hscheme, host?_of_authority huser hnames hport hparts⟩
  unfold parse
  simp only [htext, cleaned_append hne hletters hkind, splitScheme_append hne hletters,
    splitAuthority_append hkind hends, hdefect, hu]

end

/-! ### URLs cut at their delimiters -/

/-- The scheme of a URL, its authority if there is one, and its path. -/
structure Components where
  scheme : List Char
  authority : Option (List Char)
  path : List Char
deriving DecidableEq, Repr

/-- A text up to the first of some delimiters, and what is left of it. -/
def cutAt (delimiters s : List Char) : List Char × List Char :=
  (s.takeWhile (!delimiters.contains ·), s.dropWhile (!delimiters.contains ·))

/-- The components of a URL. A scheme stands before a colon, an authority after two slashes, and the
path up to a query or a fragment. -/
def components (url : List Char) : Components :=
  let first := cutAt [':', '/', '?', '#'] url
  let s : List Char × List Char := match first with
    | (c :: name, ':' :: rest) => (c :: name, rest)
    | _ => ([], url)
  match s.2 with
  | '/' :: '/' :: rest =>
    let a := cutAt ['/', '?', '#'] rest
    ⟨s.1, some a.1, (cutAt ['?', '#'] a.2).1⟩
  | rest => ⟨s.1, none, (cutAt ['?', '#'] rest).1⟩

/-- A text is cut at the first delimiter. -/
theorem cutAt_append_cons {delimiters : List Char} {d : Char} (h : ∀ c ∈ s, c ∉ delimiters)
    (hd : d ∈ delimiters) (rest : List Char) :
    cutAt delimiters (s ++ d :: rest) = (s, d :: rest) := by
  have hinside : ∀ c ∈ s, (!delimiters.contains c) = true := by
    intro c hc
    simpa using h c hc
  unfold cutAt
  rw [List.takeWhile_append_of_pos hinside, List.dropWhile_append_of_pos hinside]
  simp [hd]

/-- A URL that is put together has the components of which it is made, if there is no delimiter in
them. -/
theorem components_append (scheme : List Char) {authority path : List Char} (hne : scheme ≠ [])
    (hscheme : ∀ c ∈ scheme, c ∉ [':', '/', '?', '#'])
    (hauthority : ∀ c ∈ authority, c ∉ ['/', '?', '#'])
    (hpath : path.head? = some '/') :
    ∃ rest, path = '/' :: rest ∧ components (scheme ++ ':' :: '/' :: '/' :: (authority ++ path)) =
      ⟨scheme, some authority, '/' :: (cutAt ['?', '#'] rest).1⟩ := by
  obtain ⟨rest, rfl⟩ := List.head?_eq_some_iff.mp hpath
  refine ⟨rest, rfl, ?_⟩
  -- The colon ends the scheme, and the first slash of the path ends the authority.
  have hfirst := cutAt_append_cons hscheme (show ':' ∈ [':', '/', '?', '#'] by decide)
    ('/' :: '/' :: (authority ++ '/' :: rest))
  have hsecond := cutAt_append_cons hauthority (show '/' ∈ ['/', '?', '#'] by decide) rest
  obtain ⟨c, name, rfl⟩ := List.exists_cons_of_ne_nil hne
  unfold components
  simp only [hfirst, hsecond]
  rfl

/-! ### Authorities of a host and a port -/

/-- Whether an authority is that of a host and a port, with a user or without one. -/
def Addresses (authority host : List Char) (port : Int) : Prop :=
  ∃ user written digits, authority = user ++ written ++ ':' :: digits ∧ IsUser user ∧
    Names written host ∧
    digits ≠ [] ∧ (∀ c ∈ digits, c.isDigit = true) ∧
    (Text.Digit.number 10 (digits.map fun c => c.toNat - '0'.toNat) : Int) = port

/-- A port is written with digits and a sign. -/
theorem inHost_of_port (n : Int) : ∀ c ∈ (toString n).toList, inHost c = true := by
  intro c hc
  rw [Text.Digit.toList_toString] at hc
  rcases List.mem_append.mp hc with hc | hc
  · unfold Text.Digit.signOf at hc
    split at hc
    · rw [List.mem_singleton.mp hc]
      decide
    · cases hc
  · exact inHost_of_isPlain (isPlain_of_isDigit (Text.Digit.isDigit_toDigits c hc))

/-- A host with a port behind it may stand in an authority. -/
theorem inHost_append_port (h : ∀ c ∈ host, inHost c = true) (n : Int) :
    ∀ c ∈ host ++ ':' :: (toString n).toList, inHost c = true := by
  intro c hc
  rcases List.mem_append.mp hc with hc | hc
  · exact h c hc
  · rcases List.mem_cons.mp hc with rfl | hc
    · rfl
    · exact inHost_of_port n c hc

/-- A host and a port with a colon between them are an authority of both, unless there are colons in
the host, which would have to stand in brackets, or a sign before the port. -/
theorem addresses_iff {n : Int} (hkind : ∀ c ∈ host, inHost c = true)
    (hform : ':' ∉ host → IsEncoded isPlain host) :
    Addresses (host ++ ':' :: (toString n).toList) host n ↔ ':' ∉ host ∧ 0 ≤ n := by
  have hall := inHost_append_port hkind n
  constructor
  · rintro ⟨user, written, digits, hauthority, huser, hnames, -, -, hport⟩
    refine ⟨fun hcolon => ?_, by omega⟩
    -- A host with a colon stands in brackets, and no bracket is there.
    have hbracket : '[' ∉ host ++ ':' :: (toString n).toList := not_mem_of_kind hall (by decide)
    rw [hauthority, hnames.colon_mem_iff.mp hcolon] at hbracket
    exact hbracket (by simp)
  · rintro ⟨hcolon, hnat⟩
    have hsign : Text.Digit.signOf n = [] := if_neg (Int.not_lt.mpr hnat)
    refine ⟨[], host, Nat.toDigits 10 n.natAbs, ?_, .none, .name (hform hcolon),
      Nat.toDigits_ne_nil,
      Text.Digit.isDigit_toDigits, ?_⟩
    · rw [Text.Digit.toList_toString, hsign]
      rfl
    · rw [Text.Digit.number_toDigits (by decide) (by decide)]
      omega

end Slipway.Url
