import Slipway.Text.Utf8

/-!
# `Slipway.Scanner`: looking for a pattern in a stream of bytes

A scanner is fed a stream in chunks and says whether its pattern has occurred. Between chunks it
keeps only as many bytes as a match can begin with, one less than the pattern has, so a pattern that
lies across chunks is found while the memory stays bounded.
-/

set_option autoImplicit false

namespace Slipway

open Slipway.Text.Utf8 (Bytes)

/-- Whether a pattern occurs somewhere in a list. -/
def occurs {α : Type} [BEq α] (pattern : List α) : List α → Bool
  | [] => pattern.isEmpty
  | x :: rest => pattern.isPrefixOf (x :: rest) || occurs pattern rest

/-- A scanner for a pattern that is not empty. -/
structure Scanner where
  pattern : Bytes
  /-- The last bytes that were fed, in which a match may have begun. -/
  tail : Bytes
  bytesSeen : Nat
  matched : Bool
  pattern_ne : pattern ≠ []

namespace Scanner

/-- A scanner that has seen nothing. -/
def start (pattern : Bytes) (h : pattern ≠ []) : Scanner := ⟨pattern, [], 0, false, h⟩

/-- A scanner for a pattern that may be empty, which is a defect. -/
def ofPattern? (pattern : Bytes) : Option Scanner :=
  if h : pattern ≠ [] then some (start pattern h) else none

/-- A scanner for the UTF-8 of a text. -/
def ofText (text : String) (h : text ≠ "") : Scanner :=
  start (Text.Utf8.ofString text) (Text.Utf8.ofString_ne_nil h)

/-- The last `n` items of a list, all of them if there are fewer. -/
def lastOf {α : Type} (n : Nat) (xs : List α) : List α := xs.drop (xs.length - n)

/-- The scanner after one more chunk. After a match it sees nothing more. -/
def feed (s : Scanner) (chunk : Bytes) : Scanner :=
  if s.matched then s
  else
    let window := s.tail ++ chunk
    let seen := s.bytesSeen + chunk.length
    if occurs s.pattern window then { s with bytesSeen := seen, matched := true, tail := [] }
    else { s with bytesSeen := seen, tail := lastOf (s.pattern.length - 1) window }

/-- Feeds chunks up to the first after which the pattern has occurred. The verdict is false if the
chunks end before. -/
def scan (s : Scanner) : List Bytes → Scanner × Bool
  | [] => (s, false)
  | chunk :: rest =>
    let t := s.feed chunk
    if t.matched then (t, true) else scan t rest

end Scanner
end Slipway
