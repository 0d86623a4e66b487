import Slipway.Fault
import Slipway.Text.Cut
import Slipway.Text.Internet
import Slipway.Text.Lowercase

/-!
# `Slipway.Text.Url`: the parts of a URL

A URL is a scheme, an authority, a path, a query and a fragment, all of which may be missing. The
authority names the host, in brackets if it is a version 6 address, after an optional user and
before an optional port.
-/

set_option autoImplicit false

namespace Slipway

/-- The parts of a URL, as they are written but for the case of the scheme. -/
structure Url where
  scheme : String
  authority : List Char
  path : List Char
  query : List Char
  fragment : List Char
deriving DecidableEq, Repr

namespace Url

/-- Whether a character may stand in a scheme. -/
def inScheme (c : Char) : Bool :=
  c.isAlphanum || c == '+' || c == '-' || c == '.'

/-- A text without controls and blanks at its front, and without tabs and line ends anywhere. -/
def cleaned (s : List Char) : List Char :=
  (s.dropWhile (·.toNat ≤ 0x20)).filter fun c => c != '\t' && c != '\r' && c != '\n'

/-- The scheme at the front, none if there is none, and what follows it. -/
def splitScheme (s : List Char) : String × List Char :=
  let name := Text.before ':' s
  let startsWell := match name with
    | c :: _ => c.isAlpha
    | [] => false
  if s.contains ':' && startsWell && name.all inScheme then
    (String.ofList (name.map Char.toLower), Text.after ':' s)
  else ("", s)

/-- The authority after two slashes, and what follows it. -/
def splitAuthority : List Char → List Char × List Char
  | '/' :: '/' :: rest =>
    let ends := fun (c : Char) => c == '/' || c == '?' || c == '#'
    (rest.takeWhile (!ends ·), rest.dropWhile (!ends ·))
  | rest => ([], rest)

/-- Characters whose compatibility form has a delimiter of URLs in it. -/
def ambiguous : List Nat :=
  [0x2047, 0x2048, 0x2049, 0x2100, 0x2101, 0x2105, 0x2106, 0x2A74, 0xFE13, 0xFE16, 0xFE55, 0xFE56,
   0xFE5F, 0xFE6B, 0xFF03, 0xFF0F, 0xFF1A, 0xFF1F, 0xFF20]

/-- What is wrong with a host between brackets, if anything is. -/
def bracketDefect? (host : List Char) : Option Defect :=
  match host with
  | 'v' :: rest =>
    let version := Text.before '.' rest
    let isSound := rest.contains '.' && !version.isEmpty && !(Text.after '.' rest).isEmpty
      && version.all fun c => (Text.Digit.hexValue? c).isSome
    if isSound then none else some .badBracketHost
  | _ =>
    if Text.Internet.isShort host then some .shortAddressInBrackets
    else if Text.Internet.isLong host then none
    else some (.invalidHostAddress (String.ofList host))

/-- What is wrong with an authority, if anything is. -/
def authorityDefect? (authority : List Char) : Option Defect :=
  let opened := authority.contains '['
  let closed := authority.contains ']'
  let inBrackets :=
    if opened && closed then bracketDefect? (Text.before ']' (Text.after '[' authority)) else none
  if opened != closed then some .unclosedBracketHost
  else match inBrackets with
    | some d => some d
    | none =>
      if authority.any fun c => ambiguous.contains c.toNat then
        some (.ambiguousHost (String.ofList authority))
      else none

/-- The parts of a URL, or what is wrong with its authority. -/
def parse (text : String) : Except Defect Url :=
  let s := splitScheme (cleaned text.toList)
  let a := splitAuthority s.2
  match authorityDefect? a.1 with
  | some d => .error d
  | none =>
    let whole := Text.before '#' a.2
    .ok ⟨s.1, a.1, Text.before '?' whole, Text.after '?' whole, Text.after '#' a.2⟩

/-- The authority after the user. -/
def hostAndPort (u : Url) : List Char := Text.afterLast '@' u.authority

/-- The host in small letters, but for its zone; none if it is empty. -/
def host? (u : Url) : Option String :=
  let hp := u.hostAndPort
  let host :=
    if hp.contains '[' then Text.before ']' (Text.after '[' hp) else Text.before ':' hp
  if host.isEmpty then none
  else some (Text.Lowercase.ofString (String.ofList (Text.before '%' host))
    ++ String.ofList (host.dropWhile (· != '%')))

/-- The password of the user; none if there is none. -/
def password? (u : Url) : Option (List Char) :=
  if u.authority.contains '@' then
    let user := u.authority.take (u.authority.length - u.hostAndPort.length - 1)
    if user.contains ':' then some (Text.after ':' user) else none
  else none

/-- The port, if there is one. -/
def port (u : Url) : Except Defect (Option Nat) :=
  let hp := u.hostAndPort
  let text :=
    if hp.contains '[' then Text.after ':' (Text.after ']' (Text.after '[' hp))
      else Text.after ':' hp
  if text.isEmpty then .ok none
  else match text.mapM Text.Digit.asciiValue? with
    | none => .error (.portNotNumeric (String.ofList text))
    | some ds =>
      let n := Text.Digit.number 10 ds
      if n ≤ 65535 then .ok (some n) else .error .portRange

end Url
end Slipway
