/-!
# `Slipway.Text.Path`: paths as text

`normalise` brings a path to the form in which it is shown: repeated slashes and single-dot parts
are dropped, two leading slashes stay two, three or more become one, and the empty path is a dot.
`directory` and `name` cut a path before and after its last slash.
-/

set_option autoImplicit false

namespace Slipway.Text.Path

/-- The parts of a text between slashes; the characters of the current one come reversed. -/
def partsFrom : List Char → List Char → List (List Char)
  | acc, [] => [acc.reverse]
  | acc, c :: rest =>
    if c = '/' then acc.reverse :: partsFrom [] rest else partsFrom (c :: acc) rest

/-- The parts of a text between slashes. -/
def parts (s : List Char) : List (List Char) := partsFrom [] s

/-- The slashes that a path starts with, in its normal form. -/
def root (s : List Char) : List Char :=
  match (s.takeWhile (· == '/')).length with
  | 0 => []
  | 2 => ['/', '/']
  | _ => ['/']

/-- The normal form of a path. -/
def normalise (s : List Char) : List Char :=
  let kept := (parts s).filter fun p => !p.isEmpty && p != ['.']
  let body := ['/'].intercalate kept
  match root s ++ body with
  | [] => ['.']
  | path => path

/-- The part after the last slash. -/
def name (s : List Char) : List Char :=
  (s.reverse.takeWhile (· != '/')).reverse

/-- The part before the last slash, without the slashes at its end unless it is nothing else. -/
def directory (s : List Char) : List Char :=
  let head := (s.reverse.dropWhile (· != '/')).reverse
  if head.all (· == '/') then head
  else (head.reverse.dropWhile (· == '/')).reverse

end Slipway.Text.Path
