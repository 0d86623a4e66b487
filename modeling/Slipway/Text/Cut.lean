/-!
# `Slipway.Text.Cut`: texts cut at a character

A text is cut at the first, the last or every occurrence of a character, which is dropped.
-/

set_option autoImplicit false

namespace Slipway.Text

/-- The text before the first occurrence of a character: all of it if there is none. -/
def before (c : Char) (s : List Char) : List Char := s.takeWhile (· != c)

/-- The text after the first occurrence of a character: nothing if there is none. -/
def after (c : Char) (s : List Char) : List Char := (s.dropWhile (· != c)).drop 1

/-- The text after the last occurrence of a character: all of it if there is none. -/
def afterLast (c : Char) (s : List Char) : List Char := (s.reverse.takeWhile (· != c)).reverse

/-- The pieces of a text between occurrences of a character. There is always one. -/
def pieces (c : Char) : List Char → List (List Char)
  | [] => [[]]
  | x :: rest =>
    if x = c then [] :: pieces c rest
    else match pieces c rest with
      | [] => [[x]]
      | p :: ps => (x :: p) :: ps

/-- Whether one text occurs in another. -/
def isPart (p : List Char) : List Char → Bool
  | [] => p.isEmpty
  | x :: rest => p.isPrefixOf (x :: rest) || isPart p rest

end Slipway.Text
