import Slipway.Text.Utf8

/-!
# `Slipway.Text.Base64`: bytes written in sixty-four characters

Four characters write three bytes, and equals signs fill up the last four. The reader skips what is
no character of the alphabet. It ends at the sign that completes four characters.
-/

set_option autoImplicit false

namespace Slipway.Text.Base64

open Slipway.Text.Utf8 (Bytes)

/-- The six bits that a character of the alphabet writes. -/
def valueOf? (c : Char) : Option Nat :=
  if 'A' ≤ c && c ≤ 'Z' then some (c.toNat - 'A'.toNat)
  else if 'a' ≤ c && c ≤ 'z' then some (c.toNat - 'a'.toNat + 26)
  else if '0' ≤ c && c ≤ '9' then some (c.toNat - '0'.toNat + 52)
  else if c = '+' then some 62
  else if c = '/' then some 63
  else none

/-- The bytes of one to four values. A single value writes none. -/
def bytesOf : List Nat → Bytes
  | [a, b] => [(a * 4 + b / 16).toUInt8]
  | [a, b, c] => [(a * 4 + b / 16).toUInt8, (b % 16 * 16 + c / 4).toUInt8]
  | [a, b, c, d] =>
    [(a * 4 + b / 16).toUInt8, (b % 16 * 16 + c / 4).toUInt8, (c % 4 * 64 + d).toUInt8]
  | _ => []

/-- Reads on after the values of the last, incomplete four characters and the signs that followed
them without a break. -/
def decodeFrom : List Nat → Nat → List Char → Option Bytes
  | values, _, [] => if values.isEmpty then some [] else none
  | values, pads, c :: rest =>
    if c = '=' then
      if 2 ≤ values.length then
        if 4 ≤ values.length + pads + 1 then some (bytesOf values)
        else decodeFrom values (pads + 1) rest
      else decodeFrom values pads rest
    else match valueOf? c with
    | none => decodeFrom values pads rest
    | some v =>
      let values := values ++ [v]
      if values.length = 4 then (decodeFrom [] 0 rest).map (bytesOf values ++ ·)
      else decodeFrom values 0 rest

/-- The bytes that a text writes, none if its last four characters are not complete. -/
def decode? (s : List Char) : Option Bytes := decodeFrom [] 0 s

end Slipway.Text.Base64
