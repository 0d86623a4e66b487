import Slipway.Archive
import Slipway.Proofs.Text.Digit
import Slipway.Proofs.Text.Utf8

/-!
# `Slipway.Proofs.Archive`: what is found in the archive of a file

`entries?` reads archives of any number of entries. It goes from block to block: a header says what
type of entry it begins, the name, and how many bytes follow, and its checksum must be the sum of
its bytes. The content of an entry of type `x` is read as attributes, which stand in place of what
the next header says. A block of zeros ends the archive.

The archive of a file is read as exactly one entry, a regular file with the content of the file
(`entries?_archive`). Its name is `foundName`, whether the name has a place in the header or not.
Only the length of the attributes themselves has no other place than the field of their header, so a
bound on it is assumed.

Each reader is run on what was written in front of any rest, from the fields (`octal?_octalField`)
over the attributes (`attribute?_extended`) and the header (`heading?_header`) to one entry
(`entriesFrom_entry`, `entriesFrom_attributesEntry`). -/

set_option autoImplicit false

namespace Slipway.Archive

open Slipway.Text.Digit (number number_toDigits toNat_of_mem_toDigits)
open Slipway.Text.Utf8 (Bytes ofString ofString_append encode_of_ascii)

/-! ### A reader of archives -/

/-- Some bytes of a block, from a place on. -/
def slice (start width : Nat) (b : Bytes) : Bytes := (b.drop start).take width

/-- The bytes before the first zero. -/
def untilZero (b : Bytes) : Bytes := b.takeWhile (· != 0)

/-- The number that bytes write in a base: there is a digit, and all are digits of the base. -/
def digits? (base : Nat) (b : Bytes) : Option Nat :=
  if b ≠ [] ∧ b.all fun x => 48 ≤ x.toNat && x.toNat < 48 + base then
    some (number base (b.map fun x => x.toNat - 48))
  else none

/-- The number in a field: octal digits before a zero or a blank. -/
def octal? (b : Bytes) : Option Nat := digits? 8 (b.takeWhile fun x => x != 0 && x != 32)

/-- The attribute at the front of some bytes, as a keyword and a value, with the bytes after it. It
starts with its length in decimal and a blank and ends a line. -/
def attribute? (b : Bytes) : Option ((Bytes × Bytes) × Bytes) :=
  match digits? 10 (b.takeWhile (· != 32)) with
  | none => none
  | some length =>
    let body := ((b.take length).dropWhile (· != 32)).drop 1
    if length ≤ b.length ∧ 61 ∈ body ∧ body.getLast? = some 10 then
      some ((body.takeWhile (· != 61), ((body.dropWhile (· != 61)).drop 1).dropLast), b.drop length)
    else none

/-- The attributes that bytes hold, one after the other. -/
def attributes? : Bytes → Option (List (Bytes × Bytes))
  | [] => some []
  | x :: b =>
    match attribute? (x :: b) with
    | none => none
    | some (a, rest) =>
      if rest.length ≤ b.length then (attributes? rest).map (a :: ·) else none
termination_by b => b.length
decreasing_by simp only [List.length_cons]; omega

/-- What a header says of its entry. -/
structure Heading where
  type : UInt8
  name : Bytes
  size : Nat
deriving DecidableEq, Repr

/-- What a block says as a header. Its checksum is the sum of its bytes with blanks in place of the
checksum. A long name may be cut in two at a slash. -/
def heading? (b : Bytes) : Option Heading :=
  match octal? (slice 124 12 b), octal? (slice 148 8 b) with
  | some size, some checksum =>
    if checksum = sum (b.take 148) + 8 * 32 + sum (b.drop 156)
        ∧ slice 257 6 b = ofString "ustar" ++ [0] then
      let name := untilZero (slice 0 100 b)
      let front := untilZero (slice 345 155 b)
      some ⟨(b.drop 156).headD 0, if front = [] then name else front ++ 47 :: name, size⟩
    else none
  | _, _ => none

/-- The value of the last attribute of a keyword. -/
def valueOf? (keyword : String) (attributes : List (Bytes × Bytes)) : Option Bytes :=
  attributes.reverse.lookup (ofString keyword)

/-- A heading with attributes in place of what it says itself. -/
def Heading.amended? (attributes : List (Bytes × Bytes)) (h : Heading) : Option Heading :=
  let name := (valueOf? "path" attributes).getD h.name
  match valueOf? "size" attributes with
  | none => some { h with name }
  | some value => (digits? 10 value).map fun size => { h with name, size }

/-- The bytes of the blocks that a content takes up. -/
def wholeBlocks (n : Nat) : Nat := (n + (blockSize - 1)) / blockSize * blockSize

/-- An entry as it is found in an archive. -/
structure Entry where
  type : UInt8
  name : Bytes
  content : Bytes
deriving DecidableEq, Repr

/-- The entries from a block on, the first of which has been given attributes. -/
def entriesFrom (attributes : List (Bytes × Bytes)) (b : Bytes) : Option (List Entry) :=
  if b.length < blockSize then none
  else if (b.take blockSize).all (· == 0) then some []
  else
    match (heading? (b.take blockSize)).bind (Heading.amended? attributes) with
    | none => none
    | some h =>
      let rest := b.drop blockSize
      if rest.length < wholeBlocks h.size then none
      else if h.type = 120 then
        match attributes? (rest.take h.size) with
        | none => none
        | some given => entriesFrom given (rest.drop (wholeBlocks h.size))
      else
        (entriesFrom [] (rest.drop (wholeBlocks h.size))).map
          (⟨h.type, h.name, rest.take h.size⟩ :: ·)
termination_by b.length
decreasing_by
  all_goals
    simp only [List.length_drop]
    unfold blockSize at *
    omega

/-- The entries of an archive. -/
def entries? (b : Bytes) : Option (List Entry) := entriesFrom [] b

/-! ### Bytes in their places -/

section
variable {a b c : Bytes} {start width n : Nat}

/-- A slice that lies in the front of two byte strings is one of the front. -/
theorem slice_append_left (h : start + width ≤ a.length) :
    slice start width (a ++ b) = slice start width a := by
  unfold slice
  rw [List.drop_append_of_le_length (by omega),
    List.take_append_of_le_length (by rw [List.length_drop]; omega)]

/-- A slice that starts behind the front is one of the back. -/
theorem slice_append_right (h : a.length = n) :
    slice (n + start) width (a ++ b) = slice start width b := by
  unfold slice
  rw [← h, List.drop_length_add_append]

/-- The slice that is as wide as the front is the front. -/
theorem slice_front (h : a.length = width) : slice 0 width (a ++ b) = a := by
  unfold slice
  rw [List.drop_zero, List.take_left' h]

end

/-- No byte adds more than 255 to a checksum. -/
theorem sum_le (b : Bytes) : sum b ≤ 255 * b.length := by
  induction b using List.reverseRecOn with
  | nil => exact Nat.le_refl 0
  | append_singleton b x ih =>
    have hx : x.toNat < 256 := x.toNat_lt
    have hsum : sum (b ++ [x]) = sum b + x.toNat := by simp [sum]
    rw [hsum, List.length_append, List.length_singleton]
    omega

/-- A field is as wide as it should be, whether its content was too long or too short. -/
theorem length_field {width : Nat} {b : Bytes} : (field width b).length = width := by
  unfold field
  rw [List.length_append, List.length_take, List.length_replicate]
  omega

/-- Content is filled up to whole blocks. -/
theorem length_fill_blockSize (b : Bytes) : (fill blockSize b).length = wholeBlocks b.length := by
  unfold fill wholeBlocks blockSize
  rw [List.length_append, List.length_replicate]
  omega

/-! ### Fields -/

/-- The bytes of digits. -/
def asciiDigits (base n : Nat) : Bytes := (Nat.toDigits base n).map fun c => UInt8.ofNat c.toNat

/-- The decimal text of a number is written in ASCII digits. -/
theorem ofString_toString (n : Nat) : ofString (toString n) = asciiDigits 10 n := by
  have hascii : ∀ c ∈ Nat.toDigits 10 n, c.toNat < 0x80 := by
    intro c hc
    have := toNat_of_mem_toDigits (by decide) (Nat.le_refl 10) n c hc
    omega
  show Text.Utf8.encode (toString n).toList = _
  rw [show (toString n).toList = Nat.toDigits 10 n from Nat.toList_repr]
  exact encode_of_ascii hascii

section
variable {base : Nat} (hlow : 1 < base) (hhigh : base ≤ 10)
include hlow hhigh

/-- ASCII digits are the digits of the number, as bytes. -/
theorem toNat_asciiDigits (n : Nat) :
    (asciiDigits base n).map UInt8.toNat = (Nat.toDigits base n).map Char.toNat := by
  rw [asciiDigits, List.map_map]
  apply List.map_congr_left
  intro c hc
  have := toNat_of_mem_toDigits hlow hhigh n c hc
  exact UInt8.toNat_ofNat_of_lt' (by show c.toNat < 256; omega)

/-- The bytes of a number lie from the digit zero on, below the base. -/
theorem mem_asciiDigits {n : Nat} {x : UInt8} (h : x ∈ asciiDigits base n) :
    48 ≤ x.toNat ∧ x.toNat < 48 + base := by
  have hmem : x.toNat ∈ (Nat.toDigits base n).map Char.toNat := by
    rw [← toNat_asciiDigits hlow hhigh n]
    exact List.mem_map_of_mem h
  obtain ⟨c, hc, heq⟩ := List.mem_map.mp hmem
  rw [← heq]
  exact toNat_of_mem_toDigits hlow hhigh n c hc

/-- The digits of a number are read as that number, after any zeros. -/
theorem digits?_asciiDigits (zeros n : Nat) :
    digits? base (List.replicate zeros 48 ++ asciiDigits base n) = some n := by
  have hne : asciiDigits base n ≠ [] := fun h => Nat.toDigits_ne_nil (List.map_eq_nil_iff.mp h)
  have hall : (List.replicate zeros 48 ++ asciiDigits base n).all
      (fun x => 48 ≤ x.toNat && x.toNat < 48 + base) = true := by
    rw [List.all_eq_true]
    intro x hx
    rw [Bool.and_eq_true, decide_eq_true_eq, decide_eq_true_eq]
    rcases List.mem_append.mp hx with hx | hx
    · rw [List.eq_of_mem_replicate hx]
      exact ⟨Nat.le_refl 48, by show 48 < 48 + base; omega⟩
    · exact mem_asciiDigits hlow hhigh hx
  have hvalues : (asciiDigits base n).map (fun x => x.toNat - 48)
      = (Nat.toDigits base n).map fun c => c.toNat - '0'.toNat := by
    have hcodes := congrArg (List.map (· - 48)) (toNat_asciiDigits hlow hhigh n)
    rw [List.map_map, List.map_map] at hcodes
    exact hcodes
  -- Zeros in front are worth nothing.
  have hzeros : ∀ k ds, number base (List.replicate k 0 ++ ds) = number base ds := by
    intro k ds
    induction k with
    | zero => rfl
    | succ k ih =>
      rw [List.replicate_succ, List.cons_append, ← ih]
      unfold number
      rw [List.foldl_cons, Nat.zero_mul]
  rw [digits?, if_pos ⟨by simp [hne], hall⟩, List.map_append, List.map_replicate, hvalues]
  show some (number base (List.replicate zeros 0 ++ _)) = _
  rw [hzeros, number_toDigits hlow hhigh]

end

/-- An octal field holds leading zeros, the digits, and a byte of zero that ends it. -/
theorem octalField_eq (width n : Nat) :
    octalField width n =
      List.replicate (width - 1 - (asciiDigits 8 n).length) 48 ++ asciiDigits 8 n ++ [0] := rfl

/-- A number that has room in an octal field fills it exactly. -/
theorem length_octalField {width n : Nat} (hwidth : 1 < width) (h : n < 8 ^ (width - 1)) :
    (octalField width n).length = width := by
  have hdigits : (asciiDigits 8 n).length ≤ width - 1 := by
    rw [asciiDigits, List.length_map]
    exact (Nat.length_toDigits_le_iff (by decide) (by omega)).mpr h
  rw [octalField_eq]
  simp only [List.length_append, List.length_replicate, List.length_singleton]
  omega

/-- A number is read from its field. -/
theorem octal?_octalField (width n : Nat) (rest : Bytes) :
    octal? (octalField width n ++ rest) = some n := by
  have hdigit : ∀ x ∈ List.replicate (width - 1 - (asciiDigits 8 n).length) 48 ++ asciiDigits 8 n,
      (x != 0 && x != 32) = true := by
    intro x hx
    have hx : 48 ≤ x.toNat := by
      rcases List.mem_append.mp hx with hx | hx
      · rw [List.eq_of_mem_replicate hx]
        exact Nat.le_refl 48
      · exact (mem_asciiDigits (by decide) (by decide) hx).1
    rw [Bool.and_eq_true, bne_iff_ne, bne_iff_ne]
    constructor <;> rintro rfl <;> exact absurd hx (by decide)
  -- What is read ends at the byte of zero, which no digit is.
  rw [octal?, octalField_eq, List.append_assoc, List.takeWhile_append_of_pos hdigit]
  rw [show ([0] ++ rest : Bytes).takeWhile (fun x => x != 0 && x != 32) = [] from rfl,
    List.append_nil]
  exact digits?_asciiDigits (by decide) (by decide) _ n

/-- A text in ASCII is found up to its first zero, and the zeros after it do not count. -/
theorem untilZero_ascii {s : List Char} (h : ∀ c ∈ s, c.toNat < 0x80) (zeros : Nat) :
    untilZero ((s.map fun c => UInt8.ofNat c.toNat) ++ List.replicate zeros 0) =
      (s.takeWhile (·.toNat != 0)).map fun c => UInt8.ofNat c.toNat := by
  unfold untilZero
  -- By the characters: each of them is one byte, and that is zero just where the character is.
  induction s with
  | nil => cases zeros <;> rfl
  | cons c rest ih =>
    have hrest := ih fun d hd => h d (List.mem_cons_of_mem c hd)
    have hbyte : (UInt8.ofNat c.toNat).toNat = c.toNat :=
      UInt8.toNat_ofNat_of_lt' (by have := h c (by simp); show c.toNat < 256; omega)
    have hzero : (UInt8.ofNat c.toNat != 0) = (c.toNat != 0) := by
      rw [Bool.eq_iff_iff, bne_iff_ne, bne_iff_ne, Ne, ← UInt8.toNat_inj, hbyte]
      rfl
    rw [List.map_cons, List.cons_append, List.takeWhile_cons, List.takeWhile_cons, hzero, hrest]
    cases c.toNat != 0 <;> rfl

/-- A name that has a place in its field is found there, up to its first zero. -/
theorem untilZero_textField {name : String} (h : isLongName name = false) :
    untilZero (textField 100 name) =
      ofString (String.ofList (name.toList.takeWhile (·.toNat != 0))) := by
  simp only [isLongName, Bool.or_eq_false_iff, decide_eq_false_iff_not, List.any_eq_false,
    decide_eq_true_eq, Nat.not_lt, Nat.not_le] at h
  obtain ⟨hlength, hascii⟩ := h
  have hbytes : (name.toList.map fun c => if c.toNat < 0x80 then UInt8.ofNat c.toNat else 63) =
      name.toList.map fun c => UInt8.ofNat c.toNat :=
    List.map_congr_left fun c hc => if_pos (hascii c hc)
  -- A short name of ASCII characters has room in the field and is not cut.
  have hfits : (name.toList.map fun c => UInt8.ofNat c.toNat).length ≤ 100 := by
    rw [List.length_map]
    exact hlength
  rw [textField, hbytes, field, List.take_of_length_le hfits, untilZero_ascii hascii]
  show _ = Text.Utf8.encode _
  rw [String.toList_ofList]
  refine (encode_of_ascii fun c hc => hascii c ?_).symm
  exact (List.takeWhile_sublist _).mem hc

/-! ### Attributes -/

/-- Digits in the length of an attribute. -/
theorem length_toDigits_mono {m n : Nat} (h : m ≤ n) :
    (Nat.toDigits 10 m).length ≤ (Nat.toDigits 10 n).length := by
  have hn : n < 10 ^ (Nat.toDigits 10 n).length :=
    (Nat.length_toDigits_le_iff (by decide) Nat.length_toDigits_pos).mp (Nat.le_refl _)
  exact (Nat.length_toDigits_le_iff (by decide) Nat.length_toDigits_pos).mpr (by omega)

/-- A length that counts its own digits: after three rounds it is the same. -/
theorem grown_three (n : Nat) {grown : Nat → Nat}
    (h : ∀ m, grown m = n + (Nat.toDigits 10 m).length) :
    grown (grown (grown n)) = n + (Nat.toDigits 10 (grown (grown (grown n)))).length := by
  obtain ⟨k, hk⟩ : ∃ k, k = (Nat.toDigits 10 n).length := ⟨_, rfl⟩
  have hpos : 0 < k := hk ▸ Nat.length_toDigits_pos
  have hn : n < 10 ^ k := (Nat.length_toDigits_le_iff (by decide) hpos).mp (Nat.le_of_eq hk.symm)
  have hfirst : grown n = n + k := by rw [h, hk]
  -- A number of `k` digits with a few more than `k` added has at most one digit more.
  have hfew : n + k + 1 < 10 ^ (k + 1) := by
    have : k < 10 ^ k := Nat.lt_pow_self (by decide)
    rw [Nat.pow_succ]
    omega
  have hupper : (Nat.toDigits 10 (n + k + 1)).length ≤ k + 1 :=
    (Nat.length_toDigits_le_iff (by decide) (by omega)).mpr hfew
  have hlower : (Nat.toDigits 10 n).length ≤ (Nat.toDigits 10 (n + k)).length :=
    length_toDigits_mono (Nat.le_add_right n k)
  have hbetween : (Nat.toDigits 10 (n + k)).length ≤ (Nat.toDigits 10 (n + k + 1)).length :=
    length_toDigits_mono (Nat.le_succ _)
  -- If the first round has made a digit more, the second counts it. If not, nothing changes any
  -- more.
  rcases Nat.lt_or_ge k (Nat.toDigits 10 (n + k)).length with hgrows | hstays
  · have hsecond : grown (grown n) = n + k + 1 := by rw [hfirst, h]; omega
    have hthird : grown (grown (grown n)) = n + k + 1 := by rw [hsecond, h]; omega
    rw [hthird]
    omega
  · have hsecond : grown (grown n) = n + k := by rw [hfirst, h]; omega
    have hthird : grown (grown (grown n)) = n + k := by rw [hsecond, ← hfirst, hsecond, hfirst]
    rw [hthird]
    omega

/-- An attribute says its own length: that of the digits and of what follows them. -/
theorem exists_extended (keyword value : String) :
    ∃ n, extended keyword value =
        asciiDigits 10 n ++ 32 :: (ofString keyword ++ 61 :: (ofString value ++ [10])) ∧
      (asciiDigits 10 n ++ 32 :: (ofString keyword ++ 61 :: (ofString value ++ [10]))).length =
        n := by
  have hbody : ofString (" " ++ keyword ++ "=" ++ value ++ "\n") =
      32 :: (ofString keyword ++ 61 :: (ofString value ++ [10])) := by
    simp only [ofString_append, List.append_assoc]
    rfl
  have hgrown := grown_three (32 :: (ofString keyword ++ 61 :: (ofString value ++ [10]))).length
    (fun _ => rfl)
  have hdigits : ∀ m : Nat, (toString m).length = (Nat.toDigits 10 m).length := by
    intro m
    rw [← String.length_toList, show (toString m).toList = Nat.toDigits 10 m from Nat.toList_repr]
  -- The length counts its own digits, and three rounds are enough for it to come to rest.
  unfold extended
  simp only [hbody, ofString_toString, hdigits]
  refine ⟨_, rfl, ?_⟩
  rw [List.length_append, asciiDigits, List.length_map, Nat.add_comm]
  exact hgrown.symm

/-- An attribute is read from in front of what follows it. -/
theorem attribute?_extended {keyword : String} (value : String) (h : 61 ∉ ofString keyword)
    (rest : Bytes) :
    attribute? (extended keyword value ++ rest) =
      some ((ofString keyword, ofString value), rest) := by
  obtain ⟨n, hextended, hlength⟩ := exists_extended keyword value
  obtain ⟨body, hbody⟩ : ∃ body, body = ofString keyword ++ 61 :: (ofString value ++ [10]) :=
    ⟨_, rfl⟩
  rw [← hbody] at hextended hlength
  have hdigit : ∀ x ∈ asciiDigits 10 n, (x != 32) = true := by
    intro x hx
    have hx := (mem_asciiDigits (by decide) (Nat.le_refl 10) hx).1
    rw [bne_iff_ne]
    rintro rfl
    exact absurd hx (by decide)
  -- The length is what stands before the blank, and it delimits the whole record.
  have hfront : (extended keyword value ++ rest).takeWhile (· != 32) = asciiDigits 10 n := by
    rw [hextended, List.append_assoc, List.takeWhile_append_of_pos hdigit]
    simp
  have htake : (extended keyword value ++ rest).take n = asciiDigits 10 n ++ 32 :: body := by
    rw [hextended, List.take_left' hlength]
  have hdrop : (extended keyword value ++ rest).drop n = rest := by
    rw [hextended, List.drop_left' hlength]
  have hrest : ((asciiDigits 10 n ++ 32 :: body).dropWhile (· != 32)).drop 1 = body := by
    rw [List.dropWhile_append_of_pos hdigit]
    rfl
  have hkeyword : ∀ x ∈ ofString keyword, (x != 61) = true := by
    intro x hx
    rw [bne_iff_ne]
    rintro rfl
    exact h hx
  -- The keyword ends at the first equals sign, since it has none itself.
  have hvalue : body.takeWhile (· != 61) = ofString keyword
      ∧ ((body.dropWhile (· != 61)).drop 1).dropLast = ofString value := by
    rw [hbody, List.takeWhile_append_of_pos hkeyword, List.dropWhile_append_of_pos hkeyword]
    simp
  have hends : n ≤ (extended keyword value ++ rest).length ∧ 61 ∈ body ∧
      body.getLast? = some 10 := by
    rw [hextended, List.length_append, hlength, hbody, ← List.cons_append, ← List.append_assoc]
    exact ⟨Nat.le_add_right _ _, by simp, List.getLast?_concat⟩
  unfold attribute?
  rw [hfront, show digits? 10 (asciiDigits 10 n) = some n from
    digits?_asciiDigits (by decide) (Nat.le_refl 10) 0 n]
  simp only [htake, hrest, if_pos hends, hvalue, hdrop]

/-- Attributes are read one after the other. -/
theorem attributes?_extended {keyword : String} (value : String) (h : 61 ∉ ofString keyword)
    (rest : Bytes) :
    attributes? (extended keyword value ++ rest) =
      (attributes? rest).map ((ofString keyword, ofString value) :: ·) := by
  have hread := attribute?_extended value h rest
  have hpos : 0 < (extended keyword value).length := by
    unfold extended
    rw [List.length_append, ofString_toString, asciiDigits, List.length_map]
    exact Nat.add_pos_left Nat.length_toDigits_pos _
  obtain ⟨x, b, hcons⟩ := List.exists_cons_of_length_pos hpos
  rw [hcons, List.cons_append] at hread ⊢
  -- What is left is shorter, so the reading goes on there.
  have hshorter : rest.length ≤ (b ++ rest).length := by
    rw [List.length_append]
    exact Nat.le_add_left _ _
  rw [attributes?, hread]
  simp only [if_pos hshorter]

/-! ### Headers -/

/-- The part of a header before its checksum is 148 bytes long, if the numbers have room. -/
theorem length_headerFront (name : String) {mode size modified : Nat} (hmode : mode < 8 ^ 7)
    (hsize : size < 8 ^ 11) (hmodified : modified < 8 ^ 11) :
    (headerFront name mode size modified).length = 148 := by
  unfold headerFront textField
  simp only [List.length_append, length_field, length_octalField (show 1 < 8 by decide) hmode,
    length_octalField (show 1 < 8 by decide) (show 0 < 8 ^ 7 by decide),
    length_octalField (show 1 < 12 by decide) hsize,
    length_octalField (show 1 < 12 by decide) hmodified]

/-- The fields after the type are the same in every header. -/
def headerEnd : Bytes := (headerBack '0').tail

/-- What follows the checksum is the type and a constant end. -/
theorem headerBack_eq (type : Char) : headerBack type = UInt8.ofNat type.toNat :: headerEnd := by
  simp only [headerEnd, headerBack, fill, List.cons_append, List.length_cons, List.tail_cons]

/-- The constant end fills the header up to a block. -/
theorem length_headerEnd : headerEnd.length = 355 := by decide +kernel

section
variable (type : Char) (name : String) {mode size modified : Nat} (hmode : mode < 8 ^ 7)
  (hsize : size < 8 ^ 11) (hmodified : modified < 8 ^ 11)
include hmode hsize hmodified

/-- The name and the size stand at the front of a header. -/
theorem slice_headerFront (rest : Bytes) :
    slice 0 100 (headerFront name mode size modified ++ rest) = textField 100 name
      ∧ slice 124 12 (headerFront name mode size modified ++ rest) = octalField 12 size := by
  have hbefore :
      (textField 100 name ++ octalField 8 mode ++ octalField 8 0 ++ octalField 8 0).length
      = 124 := by
    simp only [textField, List.length_append, length_field,
      length_octalField (show 1 < 8 by decide) hmode,
      length_octalField (show 1 < 8 by decide) (show 0 < 8 ^ 7 by decide)]
  have hfront := length_headerFront name hmode hsize hmodified
  -- The name stands at the very front, and the size behind 124 bytes.
  constructor
  · rw [slice_append_left (by rw [hfront]; decide), headerFront]
    simp only [List.append_assoc]
    exact slice_front length_field
  · rw [slice_append_left (by rw [hfront]; decide), headerFront, List.append_assoc,
      ← Nat.add_zero 124,
      slice_append_right hbefore]
    exact slice_front (length_octalField (by decide) hsize)

/-- A header is its front, a checksum of six digits with a zero and a blank, and its back. -/
theorem exists_checksum :
    ∃ checksum,
      checksum = sum (headerFront name mode size modified) + 8 * 32 + sum (headerBack type)
      ∧ header type name mode size modified =
        headerFront name mode size modified ++ ((octalField 7 checksum ++ [32]) ++ headerBack type)
      ∧ (octalField 7 checksum ++ [32]).length = 8 := by
  -- The bytes of a whole block at their highest add up to no more than six digits.
  have hsum :
      sum (headerFront name mode size modified) + 8 * 32 + sum (headerBack type) < 8 ^ 6 := by
    have hfront := sum_le (headerFront name mode size modified)
    have hback := sum_le (headerBack type)
    rw [length_headerFront name hmode hsize hmodified] at hfront
    rw [headerBack_eq, List.length_cons, length_headerEnd, ← headerBack_eq] at hback
    omega
  refine ⟨_, rfl, ?_, ?_⟩
  · rw [header]
    simp only [List.append_assoc]
  · rw [List.length_append, length_octalField (by decide) hsum]
    rfl

/-- A header is one block. -/
theorem length_header : (header type name mode size modified).length = blockSize := by
  obtain ⟨checksum, -, heq, hlength⟩ :=
    exists_checksum type name hmode hsize hmodified
  rw [heq, List.length_append, List.length_append, hlength,
    length_headerFront name hmode hsize hmodified,
    headerBack_eq, List.length_cons, length_headerEnd]
  rfl

/-- What a header says is read from it. -/
theorem heading?_header :
    heading? (header type name mode size modified) =
      some ⟨UInt8.ofNat type.toNat, untilZero (textField 100 name), size⟩ := by
  obtain ⟨checksum, hchecksum, heq, hlength⟩ :=
    exists_checksum type name hmode hsize hmodified
  have hfront := length_headerFront name hmode hsize hmodified
  obtain ⟨hname, hsizeField⟩ := slice_headerFront name hmode hsize hmodified
    ((octalField 7 checksum ++ [32]) ++ headerBack type)
  rw [← heq] at hname hsizeField
  -- The checksum stands between the front and the back, and every other field in one of these.
  have hchecksumField : slice 148 8 (header type name mode size modified) =
      octalField 7 checksum ++ [32] := by
    rw [heq, ← Nat.add_zero 148, slice_append_right hfront]
    exact slice_front hlength
  have hend : ∀ start width,
      slice (148 + (8 + (1 + start))) width (header type name mode size modified) =
      slice start width headerEnd := by
    intro start width
    rw [heq, slice_append_right hfront, slice_append_right hlength, headerBack_eq]
    exact slice_append_right (a := [UInt8.ofNat type.toNat]) rfl
  have htake : (header type name mode size modified).take 148 =
      headerFront name mode size modified := by
    rw [heq, List.take_left' hfront]
  have hdrop : (header type name mode size modified).drop 156 = headerBack type := by
    rw [heq, show 156 = 148 + 8 from rfl, ← List.drop_drop, List.drop_left' hfront,
      List.drop_left' hlength]
  have hmagic : slice 257 6 (header type name mode size modified) = ofString "ustar" ++ [0] :=
    (hend 100 6).trans (by decide +kernel)
  have hnone : untilZero (slice 345 155 (header type name mode size modified)) = [] := by
    rw [hend 188 155]
    decide +kernel
  have hoctal : octal? (octalField 12 size) = some size := by
    rw [← List.append_nil (octalField 12 size)]
    exact octal?_octalField 12 size []
  unfold heading?
  rw [hsizeField, hoctal, hchecksumField, octal?_octalField]
  simp only [htake, hdrop, hmagic, ← hchecksum, hname, hnone, and_self, if_true]
  rw [headerBack_eq, List.headD_cons]

end

/-! ### Entries -/

/-- A block of zeros is no header. -/
theorem not_all_zero {b : Bytes} {said : Heading} (hlength : b.length = blockSize)
    (h : heading? b = some said) : ¬b.all (· == 0) = true := by
  intro hzero
  have hmem : ∀ x ∈ b, x = 0 := fun x hx => beq_iff_eq.mp (List.all_eq_true.mp hzero x hx)
  rw [List.eq_replicate_of_mem hmem, hlength] at h
  exact absurd h (by rw [show heading? (List.replicate blockSize 0) = none by decide +kernel]; simp)

/-- An entry is read from in front of what follows it. -/
theorem entriesFrom_entry {given : List (Bytes × Bytes)} {b content : Bytes} {said : Heading}
    {type : UInt8} {name : Bytes} (hlength : b.length = blockSize) (hb : heading? b = some said)
    (hsaid : said.amended? given = some ⟨type, name, content.length⟩) (rest : Bytes) :
    entriesFrom given (b ++ (fill blockSize content ++ rest)) =
      if type = 120 then (attributes? content).bind (entriesFrom · rest)
      else (entriesFrom [] rest).map (⟨type, name, content⟩ :: ·) := by
  have htake : (b ++ (fill blockSize content ++ rest)).take blockSize = b := List.take_left' hlength
  have hdrop : (b ++ (fill blockSize content ++ rest)).drop blockSize =
      fill blockSize content ++ rest :=
    List.drop_left' hlength
  -- Nothing is cut short: there is a block of header, and there are all of the content.
  have hlong : ¬(b ++ (fill blockSize content ++ rest)).length < blockSize := by
    rw [List.length_append, hlength]
    omega
  have hwhole : ¬(fill blockSize content ++ rest).length < wholeBlocks content.length := by
    rw [List.length_append, length_fill_blockSize]
    omega
  have hcontent : (fill blockSize content ++ rest).take content.length = content := by
    rw [fill, List.append_assoc, List.take_left' rfl]
  have hrest : (fill blockSize content ++ rest).drop (wholeBlocks content.length) = rest :=
    List.drop_left' (length_fill_blockSize content)
  rw [entriesFrom, if_neg hlong, htake, if_neg (not_all_zero hlength hb), hb, Option.bind_some,
    hsaid]
  simp only [hdrop, hrest, hcontent, if_neg hwhole]
  cases attributes? content <;> rfl

/-- A block of zeros ends an archive. -/
theorem entriesFrom_zeros (given : List (Bytes × Bytes)) {n : Nat} (h : blockSize ≤ n) :
    entriesFrom given (List.replicate n 0) = some [] := by
  have hlong : ¬(List.replicate n (0 : UInt8)).length < blockSize := by
    rw [List.length_replicate]
    omega
  have hzero : ((List.replicate n (0 : UInt8)).take blockSize).all (· == 0) = true := by
    rw [List.all_eq_true]
    intro x hx
    exact beq_iff_eq.mpr (List.eq_of_mem_replicate (List.mem_of_mem_take hx))
  rw [entriesFrom, if_neg hlong, if_pos hzero]

/-- What attributes there are is read before the entry that they are given to. -/
theorem entriesFrom_attributesEntry {b : Bytes} {given : List (Bytes × Bytes)}
    (h : attributes? b = some given) (hlength : b.length < 8 ^ 11) (rest : Bytes) :
    entriesFrom [] (attributesEntry b ++ rest) = entriesFrom given rest := by
  cases b with
  -- Without attributes there is no entry for them, and none are given.
  | nil =>
    rw [attributes?, Option.some.injEq] at h
    rw [← h]
    rfl
  | cons x b =>
    have hentry : attributesEntry (x :: b) = header 'x' "././@PaxHeader" 0 (x :: b).length 0
        ++ fill blockSize (x :: b) := rfl
    have hsaid : heading? (header 'x' "././@PaxHeader" 0 (x :: b).length 0) =
        some ⟨120, untilZero (textField 100 "././@PaxHeader"), (x :: b).length⟩ :=
      heading?_header 'x' _ (by decide) hlength (by decide)
    -- The entry is read as any other, and its type says that its content are attributes.
    have hread : entriesFrom [] (_ ++ (fill blockSize (x :: b) ++ rest)) = _ :=
      entriesFrom_entry (length_header 'x' _ (by decide) hlength (by decide)) hsaid rfl rest
    rw [hentry, List.append_assoc, hread, if_pos rfl, h, Option.bind_some]

namespace File

/-- The attributes that go with a file. -/
def given (f : File) : List (Bytes × Bytes) :=
  (if isLongName f.name then [(ofString "path", ofString f.name)] else [])
    ++ (if isLongNumber f.content.length then
      [(ofString "size", ofString (toString f.content.length))] else [])
    ++ (if isLongNumber f.modified then [(ofString "mtime", ofString (toString f.modified))]
      else [])

/-- An attribute that may be there is read in front of others. -/
theorem attributes?_ite (keyword : String) (isGiven : Bool) (value : String)
    (h : 61 ∉ ofString keyword)
    {rest : Bytes} {given : List (Bytes × Bytes)} (hrest : attributes? rest = some given) :
    attributes? ((if isGiven then extended keyword value else []) ++ rest) =
      some ((if isGiven then [(ofString keyword, ofString value)] else []) ++ given) := by
  cases isGiven with
  | false => exact hrest
  | true => exact (attributes?_extended value h rest).trans (by rw [hrest]; rfl)

/-- The attributes of a file are read back as they were given. -/
theorem attributes?_attributes (f : File) : attributes? f.attributes = some f.given := by
  have hmtime := attributes?_ite "mtime" (isLongNumber f.modified) (toString f.modified)
    (by decide) (show attributes? [] = some [] from attributes?.eq_1)
  have hsize := attributes?_ite "size" (isLongNumber f.content.length)
    (toString f.content.length) (by decide) hmtime
  have hpath := attributes?_ite "path" (isLongName f.name) f.name (by decide) hsize
  unfold attributes given
  simpa only [List.append_assoc, List.append_nil] using hpath

/-- What the header and the attributes of a file say together is what the file is. -/
theorem amended?_given (f : File) :
    Heading.amended? f.given ⟨48, untilZero (textField 100 f.name), inField f.content.length⟩ =
      some ⟨48, ofString f.foundName, f.content.length⟩ := by
  have hpath : valueOf? "path" f.given = if isLongName f.name then some (ofString f.name)
      else none := by
    unfold given
    cases isLongName f.name <;> cases isLongNumber f.content.length <;>
      cases isLongNumber f.modified <;> rfl
  have hsize : valueOf? "size" f.given =
      if isLongNumber f.content.length then some (ofString (toString f.content.length))
        else none := by
    unfold given
    cases isLongName f.name <;> cases isLongNumber f.content.length <;>
      cases isLongNumber f.modified <;> rfl
  have hname : (valueOf? "path" f.given).getD (untilZero (textField 100 f.name)) =
      ofString f.foundName := by
    rw [hpath, foundName]
    cases hlong : isLongName f.name with
    | false => exact untilZero_textField hlong
    | true => rfl
  -- A size without a place in the header is zero there, and the attribute says it.
  unfold Heading.amended?
  simp only [hname, hsize]
  unfold inField
  cases isLongNumber f.content.length with
  | false => rfl
  | true =>
    have hread : digits? 10 (ofString (toString f.content.length)) = some f.content.length := by
      rw [ofString_toString]
      exact digits?_asciiDigits (by decide) (Nat.le_refl 10) 0 _
    simp only [if_true, hread, Option.map_some]

/-- A size that has no room in its field is left to the attributes, and zero stands there. -/
theorem inField_lt (n : Nat) : inField n < 8 ^ 11 := by
  unfold inField isLongNumber
  split
  · decide
  · rename_i h
    simpa using h

/-- The permissions of a file have room in their field. -/
theorem permissions_lt (f : File) : f.permissions < 8 ^ 7 := by
  have hmod : Int.emod f.mode 4096 < 4096 := Int.emod_lt_of_pos f.mode (by decide)
  unfold permissions
  omega

/-- The archive of a file is read as one entry: a regular file with the content of the file. -/
theorem entries?_archive {f : File} (h : f.attributes.length < 8 ^ 11) :
    entries? f.archive = some [⟨48, ofString f.foundName, f.content⟩] := by
  have hmode := f.permissions_lt
  have hsize := inField_lt f.content.length
  have hmodified := inField_lt f.modified
  have hheading :
      heading? (header '0' f.name f.permissions (inField f.content.length) (inField f.modified)) =
      some ⟨48, untilZero (textField 100 f.name), inField f.content.length⟩ :=
    heading?_header '0' f.name hmode hsize hmodified
  -- The two blocks of zeros at the end and those that fill the record are one run of zeros.
  obtain ⟨n, hn, hzeros⟩ : ∃ n, blockSize ≤ n ∧ f.archive = attributesEntry f.attributes
      ++ (header '0' f.name f.permissions (inField f.content.length) (inField f.modified)
        ++ (fill blockSize f.content ++ List.replicate n 0)) := by
    rw [archive, fill]
    simp only [List.append_assoc, List.replicate_append_replicate]
    refine ⟨_, ?_, rfl⟩
    exact Nat.le_add_right_of_le (show blockSize ≤ 2 * blockSize by decide)
  calc entries? f.archive
      = entriesFrom f.given (header '0' f.name f.permissions (inField f.content.length)
          (inField f.modified) ++ (fill blockSize f.content ++ List.replicate n 0)) := by
        rw [hzeros, entries?, entriesFrom_attributesEntry f.attributes?_attributes h]
    _ = (entriesFrom [] (List.replicate n 0)).map (⟨48, ofString f.foundName, f.content⟩ :: ·) := by
        rw [entriesFrom_entry (length_header '0' f.name hmode hsize hmodified)
          hheading f.amended?_given, if_neg (by decide)]
    _ = some [⟨48, ofString f.foundName, f.content⟩] := by
        rw [entriesFrom_zeros [] hn]
        rfl

end File
end Slipway.Archive
