import Slipway.Calendar.Basic
import Slipway.Issue
import Slipway.Text.Blank

/-!
# `Slipway.Calendar.Lenient`: timestamps in data

Data may give a time as `yyyy-mm-dd`, alone or followed by one of `T`, `t`, space and `_`, a time
`hh:mm[:ss[.f…]]` and an offset; or as a number of seconds since 1970, which is taken as
milliseconds if it is large. Digits beyond microseconds are dropped.
-/

set_option autoImplicit false

namespace Slipway.Calendar.Lenient

/-- The number that the next `n` characters write, and what follows them. -/
def digits? (n : Nat) (s : List Char) : Option (Nat × List Char) :=
  let ds := s.take n
  if ds.length = n && ds.all Char.isDigit then
    some (Text.Digit.number 10 (ds.map fun c => c.toNat - 48), s.drop n)
  else none

/-- The date at the front, and what follows. -/
def date? (s : List Char) : Except DateFault (Date × List Char) :=
  if s.length < 10 then .error .tooShort else
  match digits? 4 s with
  | none => .error .yearCharacter
  | some (year, rest) =>
    if rest.head? != some '-' then .error .separator else
    match digits? 2 (rest.drop 1) with
    | none => .error .monthCharacter
    | some (month, rest) =>
      if rest.head? != some '-' then .error .separator else
      match digits? 2 (rest.drop 1) with
      | none => .error .dayCharacter
      | some (day, rest) =>
        if month < 1 || 12 < month then .error .monthRange
        else if day < 1 || daysInMonth year month < day then .error .dayRange
        else .ok (⟨year, month, day⟩, rest)

/-- The fraction of a second at the front in microseconds, and what follows: `some (0, s)` if there
is none. -/
def fraction? : List Char → Option (Nat × List Char)
  | c :: rest =>
    if c = '.' || c = ',' then
      let ds := rest.takeWhile Char.isDigit
      if ds.isEmpty then none
      else
        let six := (ds ++ List.replicate 6 '0').take 6
        some (Text.Digit.number 10 (six.map fun d => d.toNat - 48), rest.dropWhile Char.isDigit)
    else some (0, c :: rest)
  | [] => some (0, [])

/-- The time of day at the front, and what follows. -/
def time? (s : List Char) : Option (TimeOfDay × List Char) :=
  match digits? 2 s with
  | some (hour, ':' :: rest) =>
    match digits? 2 rest with
    | some (minute, rest) =>
      let clock (second micro : Nat) (rest : List Char) :=
        let t : TimeOfDay := ⟨hour, minute, second, micro⟩
        if t.isValid then some (t, rest) else none
      match rest with
      | ':' :: rest =>
        match digits? 2 rest with
        | some (second, rest) =>
          match fraction? rest with
          | some (micro, rest) => clock second micro rest
          | none => none
        | none => none
      | rest => clock 0 0 rest
    | none => none
  | _ => none

/-- The offset that a whole text writes, in microseconds: `Z`, or a sign and `hh[[:]mm]`. -/
def offset? : List Char → Option (Option Int)
  | [] => some none
  | c :: rest =>
    if c = 'Z' || c = 'z' then if rest.isEmpty then some (some 0) else none
    else if c = '+' || c = '-' then
      match digits? 2 rest with
      | none => none
      | some (hour, rest) =>
        let minutes? : Option Nat := match rest with
          | [] => some 0
          | ':' :: rest => (digits? 2 rest).bind fun r => if r.2.isEmpty then some r.1 else none
          | rest => (digits? 2 rest).bind fun r => if r.2.isEmpty then some r.1 else none
        match minutes? with
        | none => none
        | some minute =>
          let total : Int := (hour * 60 + minute : Nat) * 60000000
          if 86400000000 ≤ total || 59 < minute then none
          else some (some (if c = '-' then -total else total))
    else none

/-- The timestamp that a whole text writes in full. -/
def full? (s : List Char) : Option Timestamp :=
  match date? s with
  | .error _ => none
  | .ok (d, sep :: rest) =>
    if d.year = 0 then none
    else if sep = 'T' || sep = 't' || sep = ' ' || sep = '_' then
      match time? rest with
      | some (t, rest) => (offset? rest).map fun o => ⟨d, t, o⟩
      | none => none
    else none
  | .ok (_, []) => none

/-- The greatest number that counts seconds; greater ones count milliseconds. -/
def watershed : Nat := 20000000000

/-- The timestamp of a number of seconds or milliseconds, given as a whole number and a part in
microseconds of a second. -/
def ofNumber (whole : Int) (micros : Nat) : Except DateFault Timestamp :=
  let total : Int :=
    if whole.natAbs ≤ watershed then whole * 1000000 + micros
    else whole * 1000 + micros / 1000
  if 253402300800000000 ≤ total then .error .tooLarge
  else if total < -62135596800000000 then .error .tooSmall
  else .ok (Timestamp.ofInstant total)

/-- The number that a whole text writes, in whole and millionths. -/
def number? (s : List Char) : Option (Int × Nat) :=
  let t := Text.trim Text.isAsciiBlank s
  let signed : Bool × List Char := match t with
    | '-' :: rest => (true, rest)
    | '+' :: rest => (false, rest)
    | rest => (false, rest)
  let ds := signed.2.takeWhile Char.isDigit
  let rest := signed.2.dropWhile Char.isDigit
  let whole := Text.Digit.number 10 (ds.map fun c => c.toNat - 48)
  let six? : Option (List Char) := match rest with
    | [] => some []
    | '.' :: fs => if fs.all Char.isDigit then some (fs.take 6) else none
    | _ => none
  if ds.isEmpty then none
  else match six? with
  | none => none
  | some fs =>
    let micros := Text.Digit.number 10
      ((fs ++ List.replicate (6 - fs.length) '0').map fun c => c.toNat - 48)
    if signed.1 then
      if micros = 0 then some (-(whole : Int), 0)
      else some (-(whole : Int) - 1, 1000000 - micros)
    else some (whole, micros)

/-- The timestamp that a text writes; what is wrong with it as a date if it writes none. -/
def parse (s : List Char) : Except DateFault Timestamp :=
  match full? s with
  | some t => .ok t
  | none =>
    match number? s with
    | some (whole, micros) => ofNumber whole micros
    | none =>
      match date? s with
      | .error e => .error e
      | .ok (d, []) => if d.year = 0 then .error .yearCharacter else .ok ⟨d, .midnight, none⟩
      | .ok (_, _ :: _) => .error .extraCharacters

end Slipway.Calendar.Lenient
