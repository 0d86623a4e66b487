import Slipway.Text.Cut
import Slipway.Text.Digit

/-!
# `Slipway.Text.Internet`: internet addresses as text

A version 4 address is four numbers below 256 in decimal, without leading zeros, between dots. A
version 6 address is eight groups of up to four hexadecimal digits between colons; one run of groups
may be left out where two colons meet, the last two groups may be written as a version 4 address,
and a zone may follow a percent sign.
-/

set_option autoImplicit false

namespace Slipway.Text.Internet

/-- Whether a text is one of the four numbers of a version 4 address. -/
def isOctet (s : List Char) : Bool :=
  match s.mapM Digit.asciiValue? with
  | none => false
  | some ds =>
    !ds.isEmpty && ds.length ≤ 3 && (ds.length = 1 || ds.head? != some 0) && Digit.number 10 ds ≤
      255

/-- Whether a text is a version 4 address. -/
def isShort (s : List Char) : Bool :=
  let octets := pieces '.' s
  octets.length == 4 && octets.all isOctet

/-- Whether a text is a group of a version 6 address. -/
def isGroup (s : List Char) : Bool :=
  !s.isEmpty && s.length ≤ 4 && s.all fun c => (Digit.hexValue? c).isSome

/-- The groups of a version 6 address, with a version 4 address at the end as two of them. -/
def groups (s : List Char) : Option (List (List Char)) :=
  let gs := pieces ':' s
  match gs.getLast? with
  | some last =>
    if gs.length < 3 then none
    else if last.contains '.' then
      if isShort last then some (gs.dropLast ++ [['0'], ['0']]) else none
    else some gs
  | none => none

/-- Whether groups make a version 6 address. The groups before and after the one that stands for
those left out are complete, and fewer than eight. An address may begin or end with two colons, not
with one. -/
def areComplete (gs : List (List Char)) : Bool :=
  let inner := (gs.drop 1).dropLast
  match inner.findIdx? List.isEmpty with
  | none => gs.length == 8 && gs.all isGroup
  | some i =>
    let left := gs.take (i + 1)
    let right := gs.drop (i + 2)
    let front := if left.head? = some [] then left.drop 1 else left
    let back := if right.getLast? = some [] then right.dropLast else right
    gs.length ≤ 9 && front.all isGroup && back.all isGroup
      && (left.head? != some [] || front.isEmpty) && (right.getLast? != some [] || back.isEmpty)
      && front.length + back.length < 8

/-- Whether a text is a version 6 address. -/
def isLong (s : List Char) : Bool :=
  let zone := after '%' s
  let zoned := s.contains '%'
  if zoned && (zone.isEmpty || zone.contains '%') then false
  else match groups (before '%' s) with
    | some gs => areComplete gs
    | none => false

end Slipway.Text.Internet
