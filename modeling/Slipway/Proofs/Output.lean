import Slipway.Injection
import Slipway.Proofs.Scanner
import Slipway.Proofs.Text.Utf8

/-!
# `Slipway.Proofs.Output`: a text in the output of a command and in a log

A text is looked for in two places, in two ways. In the output of a command it is looked for after
the bytes have been read, whatever in them is no text being replaced. In a log it is looked for by
its own bytes, in pieces that may be cut anywhere. `judge_output_iff_scan` says that both find the
same: a command is held to have written a text iff a scanner would have found the text in what it
wrote.

The text must not be empty, and must not have the replacement character in it: malformed bytes are
read as that, though the bytes of the character itself are not there.
-/

set_option autoImplicit false

namespace Slipway

open Slipway.Text.Utf8 (Bytes decodeLossy toStringLossy infix_decodeLossy_iff)

/-- The bytes that a command wrote to a stream. -/
def ExecResult.written (r : ExecResult) : Stream → Bytes
  | .stdout => r.stdout
  | .stderr => r.stderr

/-- The text of a stream is what was written there, decoded. -/
theorem ExecResult.toList_output (r : ExecResult) (stream : Stream) :
    (r.output stream).toList = decodeLossy (r.written stream) := by
  cases stream <;> simp [output, written, toStringLossy]

/-- The scanner of a text finds it iff its bytes are in the whole stream. -/
theorem Scanner.scan_ofText_iff {text : String} (h : text ≠ "") (chunks : List Bytes) :
    ((ofText text h).scan chunks).2 = true ↔ Text.Utf8.encode text.toList <:+: chunks.flatten :=
  scan_iff (Text.Utf8.ofString_ne_nil h) chunks

namespace Injection

/-- A command is held to an output by a search in that text. -/
theorem judge_output_eq_none_iff (c : Command) (r : ExecResult) (stream : Stream) (text : String) :
    judge c r (.output stream text) = none ↔ text.toList <:+: (r.output stream).toList := by
  rw [judge, ← occurs_iff]
  split <;> simp [*]

/-- A command counts as having written a text iff a scanner finds the text in the bytes it wrote,
however they are cut. -/
theorem judge_output_iff_scan (c : Command) (r : ExecResult) (stream : Stream) {text : String}
    (htext : text ≠ "") (hreplacement : '\uFFFD' ∉ text.toList) {chunks : List Bytes}
    (hchunks : chunks.flatten = r.written stream) :
    judge c r (.output stream text) = none ↔
      ((Scanner.ofText text htext).scan chunks).2 = true := by
  have hne : text.toList ≠ [] := by
    intro hnil
    exact htext (by simpa using hnil)
  rw [judge_output_eq_none_iff, r.toList_output, Scanner.scan_ofText_iff, hchunks]
  exact infix_decodeLossy_iff hne hreplacement

/-- A character is cut in half, and before it stands a byte that begins another one and is not gone
on with. The output holds the character all the same, since a scanner finds it in the two halves. -/
theorem judge_output_of_cut_character :
    let r : ExecResult := ⟨some 0, [0xE2, 0xC3, 0xA9, 0x0A], []⟩
    "é" ≠ "" ∧ '\uFFFD' ∉ "é".toList ∧ [[0xE2, 0xC3], [0xA9, 0x0A]].flatten = r.written .stdout ∧
      judge (.plain ["date"]) r (.output .stdout "é") = none := by
  intro r
  have hcut : [[0xE2, 0xC3], [0xA9, 0x0A]].flatten = r.written .stdout := rfl
  have hjudge := judge_output_iff_scan (.plain ["date"]) r .stdout
    (show "é" ≠ "" by decide) (by decide) hcut
  exact ⟨by decide, by decide, hcut, hjudge.mpr (by decide)⟩

end Injection
end Slipway
