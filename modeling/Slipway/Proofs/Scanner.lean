import Mathlib.Data.List.Infix
import Slipway.Scanner

/-!
# `Slipway.Proofs.Scanner`: a scanner finds what a search of everything would find

A scanner keeps only the last bytes that it was fed. Still, whether it has found its pattern depends
on all of them together, and not on how they were cut.

The scanner after some bytes is not defined here by feeding it. `fed` computes it from the bytes
alone, if the pattern is not in them, and `found` from their number, if it is. One chunk takes the
scanner fed with some bytes to the one fed with those and the chunk (`feed_eq_fed`), unless that
completes the pattern (`feed_eq_found`). So `scan_iff` follows by induction on the chunks.

The reason is `infix_append_iff`: a pattern that is not in the bytes so far, and is in them with
more bytes after them, begins in the last of them, of which there are fewer than the pattern has.

`scan_searches_whole` says more: where a scan stops, what is kept until then, and that nothing
changes afterwards. If the pattern comes at all there is a first chunk that completes it
(`exists_first`). The scan goes through the chunks before that one (`scan_fed`) and reads none of
those after it (`scan_fed_append`). -/

set_option autoImplicit false

namespace Slipway

open Slipway.Text.Utf8 (Bytes)

section
variable {α : Type} [BEq α] [LawfulBEq α] {pattern xs ys : List α}

/-- The search finds what is an infix. -/
theorem occurs_iff : occurs pattern xs = true ↔ pattern <:+: xs := by
  induction xs with
  | nil => simp [occurs]
  | cons x rest ih =>
    rw [occurs, Bool.or_eq_true, List.isPrefixOf_iff_prefix, ih, List.infix_cons_iff]

end

namespace Scanner

section
variable {α : Type} {pattern xs ys : List α}

/-- The last items of a list, with more after them, are the whole without its first items. -/
theorem lastOf_append (n : Nat) (xs ys : List α) :
    lastOf n xs ++ ys = (xs ++ ys).drop (xs.length - n) := by
  rw [lastOf, List.drop_append_of_le_length (Nat.sub_le _ _)]

/-- The last bytes and what follows end the whole. -/
theorem lastOf_append_suffix (n : Nat) (xs ys : List α) : lastOf n xs ++ ys <:+ xs ++ ys := by
  rw [lastOf_append]
  exact List.drop_suffix _ _

/-- Keeping the last items chunk by chunk is keeping the last items of everything. -/
theorem lastOf_lastOf_append (n : Nat) (xs ys : List α) :
    lastOf n (lastOf n xs ++ ys) = lastOf n (xs ++ ys) := by
  rw [lastOf_append, lastOf, lastOf, List.drop_drop]
  -- Both drop the same number of items: no fewer are left after the first time than are kept.
  congr 1
  rw [List.length_drop, List.length_append]
  omega

/-- A pattern that is not in a list yet begins in its last items, fewer than the pattern has. -/
theorem infix_append_iff (h : ¬ pattern <:+: xs) :
    pattern <:+: lastOf (pattern.length - 1) xs ++ ys ↔ pattern <:+: xs ++ ys := by
  constructor
  · intro hlast
    exact hlast.trans (lastOf_append_suffix _ xs ys).isInfix
  · rintro ⟨before, after, heq⟩
    -- The match ends after the list, since it is not in it.
    have hlate : xs.length < before.length + pattern.length := by
      rcases List.append_eq_append_iff.mp heq with ⟨u, rfl, -⟩ | ⟨u, hu, -⟩
      · exact absurd ⟨before, u, rfl⟩ h
      · have hlength := congrArg List.length hu
        simp only [List.length_append] at hlength
        rcases Nat.eq_zero_or_pos u.length with hzero | hpos
        · rw [List.eq_nil_of_length_eq_zero hzero, List.append_nil] at hu
          exact absurd ⟨before, [], by rw [List.append_nil, hu]⟩ h
        · omega
    rw [lastOf_append, ← heq, List.append_assoc,
      List.drop_append_of_le_length (by omega)]
    exact ⟨before.drop (xs.length - (pattern.length - 1)), after, List.append_assoc _ _ _⟩

end

/-! ### The states of a scanner -/

variable {pattern : Bytes}

/-- The scanner that was fed some bytes in which the pattern is not. -/
def fed (h : pattern ≠ []) (seen : Bytes) : Scanner :=
  ⟨pattern, lastOf (pattern.length - 1) seen, seen.length, false, h⟩

/-- The scanner that has found the pattern in so many bytes. -/
def found (h : pattern ≠ []) (count : Nat) : Scanner := ⟨pattern, [], count, true, h⟩

/-- A scanner that starts has seen nothing. -/
theorem start_eq_fed (h : pattern ≠ []) : start pattern h = fed h [] := by
  simp [start, fed, lastOf]

/-- No pattern is found in nothing. -/
theorem not_infix_nil (h : pattern ≠ []) : ¬ pattern <:+: ([] : Bytes) := by
  rw [List.infix_nil]
  exact h

section
variable {h : pattern ≠ []} {seen chunk : Bytes}

/-- A chunk that completes the pattern stops the scanner. -/
theorem feed_eq_found (hseen : ¬ pattern <:+: seen) (hchunk : pattern <:+: seen ++ chunk) :
    (fed h seen).feed chunk = found h (seen ++ chunk).length := by
  have hwindow : occurs pattern (lastOf (pattern.length - 1) seen ++ chunk) = true :=
    occurs_iff.mpr ((infix_append_iff hseen).mpr hchunk)
  simp [feed, fed, found, hwindow]

/-- Any other chunk is seen. -/
theorem feed_eq_fed (hchunk : ¬ pattern <:+: seen ++ chunk) :
    (fed h seen).feed chunk = fed h (seen ++ chunk) := by
  have hwindow : ¬ occurs pattern (lastOf (pattern.length - 1) seen ++ chunk) = true := by
    rw [occurs_iff]
    intro hlast
    exact hchunk (hlast.trans (lastOf_append_suffix _ seen chunk).isInfix)
  simp [feed, fed, hwindow, lastOf_lastOf_append]

/-- What is not in some bytes with more after them is not in these bytes. -/
theorem not_infix_of_append (hchunk : ¬ pattern <:+: seen ++ chunk) : ¬ pattern <:+: seen := by
  intro hseen
  exact hchunk (hseen.trans (List.prefix_append seen chunk).isInfix)

/-- Feeding the rest of a stream finds the pattern iff it is in the whole. -/
theorem scan_fed_iff (hseen : ¬ pattern <:+: seen) (chunks : List Bytes) :
    ((fed h seen).scan chunks).2 = true ↔ pattern <:+: seen ++ chunks.flatten := by
  -- By the chunks: what was seen grows until the pattern is in it.
  induction chunks generalizing seen with
  | nil => simpa [scan] using hseen
  | cons chunk rest ih =>
    rw [scan, List.flatten_cons, ← List.append_assoc]
    by_cases hchunk : pattern <:+: seen ++ chunk
    · have hwhole : pattern <:+: seen ++ chunk ++ rest.flatten :=
        hchunk.trans (List.prefix_append _ _).isInfix
      simp only [feed_eq_found hseen hchunk, hwhole]
      simp [found]
    · simp only [feed_eq_fed hchunk]
      exact ih hchunk

end

/-- A scanner finds its pattern iff the pattern is in the whole stream, however that is cut. -/
theorem scan_iff (h : pattern ≠ []) (chunks : List Bytes) :
    ((start pattern h).scan chunks).2 = true ↔ pattern <:+: chunks.flatten := by
  rw [start_eq_fed, scan_fed_iff (not_infix_nil h), List.nil_append]

/-! ### Where a scan stops, and what is kept -/

/-- After a match a scanner sees nothing more. -/
theorem feed_of_matched {s : Scanner} (hs : s.matched = true) (chunk : Bytes) :
    s.feed chunk = s := by
  rw [feed, if_pos hs]

section
variable {h : pattern ≠ []} {seen : Bytes}

/-- A scanner whose pattern has not come is what is computed from all bytes, however they were cut.
-/
theorem foldl_feed_fed (chunks : List Bytes) (hchunks : ¬ pattern <:+: seen ++ chunks.flatten) :
    chunks.foldl feed (fed h seen) = fed h (seen ++ chunks.flatten) := by
  induction chunks generalizing seen with
  | nil => simp
  | cons chunk rest ih =>
    rw [List.flatten_cons, ← List.append_assoc] at hchunks ⊢
    rw [List.foldl_cons, feed_eq_fed (not_infix_of_append hchunks), ih hchunks]

/-- A scan of chunks in which the pattern does not come goes through all of them. -/
theorem scan_fed (chunks : List Bytes) (hchunks : ¬ pattern <:+: seen ++ chunks.flatten) :
    (fed h seen).scan chunks = (fed h (seen ++ chunks.flatten), false) := by
  induction chunks generalizing seen with
  | nil => simp [scan]
  | cons chunk rest ih =>
    rw [List.flatten_cons, ← List.append_assoc] at hchunks ⊢
    simp only [scan, feed_eq_fed (not_infix_of_append hchunks)]
    exact ih hchunks

/-- A scan stops after the chunk that completes the pattern, whatever comes then. -/
theorem scan_fed_append (before : List Bytes) (chunk : Bytes) (after : List Bytes)
    (hbefore : ¬ pattern <:+: seen ++ before.flatten)
    (hchunk : pattern <:+: seen ++ before.flatten ++ chunk) :
    (fed h seen).scan (before ++ chunk :: after) =
      (found h (seen ++ before.flatten ++ chunk).length, true) := by
  -- By the chunks before: none of them completes the pattern.
  induction before generalizing seen with
  | nil =>
    rw [List.flatten_nil, List.append_nil] at hbefore hchunk ⊢
    simp only [List.nil_append, scan, feed_eq_found hbefore hchunk]
    rfl
  | cons first rest ih =>
    rw [List.flatten_cons, ← List.append_assoc] at hbefore hchunk ⊢
    simp only [List.cons_append, scan, feed_eq_fed (not_infix_of_append hbefore)]
    exact ih hbefore hchunk

/-- Feeding up to the chunk that completes the pattern, and then anything. -/
theorem foldl_feed_append (before : List Bytes) (chunk : Bytes) (after : List Bytes)
    (hbefore : ¬ pattern <:+: seen ++ before.flatten)
    (hchunk : pattern <:+: seen ++ before.flatten ++ chunk) :
    (before ++ chunk :: after).foldl feed (fed h seen) =
      found h (seen ++ before.flatten ++ chunk).length := by
  rw [List.foldl_append, foldl_feed_fed before hbefore, List.foldl_cons,
    feed_eq_found hbefore hchunk]
  induction after with
  | nil => rfl
  | cons next rest ih => rw [List.foldl_cons, feed_of_matched rfl, ih]

end

/-- Where a pattern comes in some chunks, there is a first one that completes it. -/
theorem exists_first {chunks : List Bytes} (hchunks : pattern <:+: chunks.flatten)
    (h : pattern ≠ []) :
    ∃ before chunk after, chunks = before ++ chunk :: after ∧ ¬ pattern <:+: before.flatten ∧
      pattern <:+: before.flatten ++ chunk := by
  suffices hseen : ∀ seen : Bytes, ¬ pattern <:+: seen → pattern <:+: seen ++ chunks.flatten →
      ∃ before chunk after, chunks = before ++ chunk :: after ∧
        ¬ pattern <:+: seen ++ before.flatten ∧
        pattern <:+: seen ++ before.flatten ++ chunk by
    simpa using hseen [] (not_infix_nil h) (by simpa using hchunks)
  clear hchunks
  induction chunks with
  | nil =>
    intro seen hseen hchunks
    exact absurd (by simpa using hchunks) hseen
  | cons chunk rest ih =>
    intro seen hseen hchunks
    -- The first chunk completes the pattern, or it is seen and a later one does.
    by_cases hfirst : pattern <:+: seen ++ chunk
    · exact ⟨[], chunk, rest, rfl, by simpa using hseen, by simpa using hfirst⟩
    · rw [List.flatten_cons, ← List.append_assoc] at hchunks
      obtain ⟨before, c, after, rfl, hbefore, hc⟩ := ih (seen ++ chunk) hfirst hchunks
      exact ⟨chunk :: before, c, after, rfl, by simpa using hbefore, by simpa using hc⟩

/-- The bytes that a scanner keeps: the last of those that it was fed, one fewer than the pattern
has or all there are. -/
theorem tail_fed (h : pattern ≠ []) (seen : Bytes) :
    (fed h seen).tail <:+ seen ∧
    (fed h seen).tail.length = min (pattern.length - 1) seen.length := by
  refine ⟨List.drop_suffix _ _, ?_⟩
  rw [fed, lastOf, List.length_drop]
  omega

/-- Scanning in pieces is searching the whole.

A scan of chunks finds the pattern iff it is in all of them together. It stops after the first chunk
that completes the pattern, having seen just the chunks up to that one, whatever comes after it. As
long as the pattern has not come, what a scanner that was fed chunks keeps are the last of their
bytes, one fewer than the pattern has or all of them. Once the pattern has come, feeding more
changes nothing. The scanner of a text is the scanner of its UTF-8. -/
theorem scan_searches_whole (h : pattern ≠ []) (chunks : List Bytes) :
    (((start pattern h).scan chunks).2 = true ↔ pattern <:+: chunks.flatten) ∧
    (∀ before chunk after, chunks = before ++ chunk :: after → ¬ pattern <:+: before.flatten →
      pattern <:+: before.flatten ++ chunk →
        ((start pattern h).scan chunks).1 = (before ++ [chunk]).foldl feed (start pattern h) ∧
        ((start pattern h).scan chunks).1.bytesSeen = (before.flatten ++ chunk).length) ∧
    (¬ pattern <:+: chunks.flatten →
      ((start pattern h).scan chunks).1 = chunks.foldl feed (start pattern h) ∧
      (chunks.foldl feed (start pattern h)).matched = false ∧
      (chunks.foldl feed (start pattern h)).bytesSeen = chunks.flatten.length ∧
      (chunks.foldl feed (start pattern h)).tail <:+ chunks.flatten ∧
      (chunks.foldl feed (start pattern h)).tail.length =
        min (pattern.length - 1) (chunks.foldl feed (start pattern h)).bytesSeen) ∧
    (pattern <:+: chunks.flatten → ∀ chunk,
      (chunks.foldl feed (start pattern h)).matched = true ∧
      (chunks.foldl feed (start pattern h)).feed chunk = chunks.foldl feed (start pattern h)) ∧
    (∀ (text : String) (ht : text ≠ ""),
      ∃ hpattern, ofText text ht = start (Text.Utf8.encode text.toList) hpattern) := by
  have hstart : ∀ {bytes : Bytes}, ¬ pattern <:+: bytes → ¬ pattern <:+: [] ++ bytes := by
    intro bytes hbytes
    rwa [List.nil_append]
  refine ⟨scan_iff h chunks, ?_, ?_, ?_, fun text ht => ⟨Text.Utf8.ofString_ne_nil ht, rfl⟩⟩
  · rintro before chunk after rfl hbefore hchunk
    have hscan := scan_fed_append (h := h) before chunk after (hstart hbefore) hchunk
    have hfold := foldl_feed_append (h := h) before chunk [] (hstart hbefore) hchunk
    rw [start_eq_fed, hscan, hfold]
    exact ⟨rfl, rfl⟩
  · intro hchunks
    have hscan := scan_fed (h := h) chunks (hstart hchunks)
    have hfold := foldl_feed_fed (h := h) chunks (hstart hchunks)
    obtain ⟨hsuffix, hlength⟩ := tail_fed h chunks.flatten
    rw [start_eq_fed, hscan, hfold, List.nil_append]
    exact ⟨rfl, rfl, rfl, hsuffix, hlength⟩
  · intro hchunks chunk
    -- Some chunk is the first to complete the pattern, and the scanner stays as it was then.
    obtain ⟨before, first, after, rfl, hbefore, hfirst⟩ := exists_first hchunks h
    have hfold := foldl_feed_append (h := h) before first after (hstart hbefore) hfirst
    rw [start_eq_fed, hfold]
    exact ⟨rfl, feed_of_matched rfl chunk⟩

/-- The pattern comes in three chunks, the second of which is empty; what is left of it afterwards
is not looked at. -/
theorem scan_searches_whole_of_split :
    ([0x61, 0x62] : Bytes) ≠ [] ∧
      ((start [0x61, 0x62] (by decide)).scan [[0x61, 0x61], [], [0x62], [0x61, 0x62]]).2 = true ∧
      ((start [0x61, 0x62] (by decide)).scan [[0x61, 0x61], [], [0x62], [0x61, 0x62]]).1.bytesSeen =
        3 := by
  have hpattern : ([0x61, 0x62] : Bytes) ≠ [] := by decide
  obtain ⟨hfinds, hstops, -⟩ :=
    scan_searches_whole hpattern [[0x61, 0x61], [], [0x62], [0x61, 0x62]]
  have hbytes := hstops [[0x61, 0x61], []] [0x62] [[0x61, 0x62]] rfl (by decide) (by decide)
  exact ⟨hpattern, hfinds.mpr (by decide), hbytes.2⟩

end Scanner
end Slipway
