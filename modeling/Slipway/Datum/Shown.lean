import Slipway.Binary64.Shortest
import Slipway.Datum.Basic
import Slipway.Text.Quoted

/-!
# `Slipway.Datum.Shown`: data as messages show it

A text stands for itself; inside a list or a mapping it is quoted.
-/

set_option autoImplicit false

namespace Slipway.Datum

open Slipway.Text.Utf8 (Bytes)

/-- One byte between quotes `q`. -/
def escapeByte (q : Char) (b : UInt8) : List Char :=
  let c := Char.ofNat b.toNat
  if c = q || c = '\\' then ['\\', c]
  else if c = '\t' then ['\\', 't']
  else if c = '\n' then ['\\', 'n']
  else if c = '\r' then ['\\', 'r']
  else if 0x20 ≤ b && b < 0x7F then [c]
  else '\\' :: 'x' :: Text.Digit.padded 16 2 b.toNat

/-- Bytes as a message shows them. -/
def quotedBytes (bs : Bytes) : String :=
  let q := if bs.contains 39 && !bs.contains 34 then '"' else '\''
  String.ofList ('b' :: q :: (bs.flatMap (escapeByte q) ++ [q]))

/-- The parts of a timestamp as a message shows them. -/
def timestampParts (t : Calendar.Timestamp) : String :=
  let parts := [t.date.year, t.date.month, t.date.day, t.time.hour, t.time.minute]
    ++ (if t.time.second = 0 && t.time.micro = 0 then [] else [t.time.second])
    ++ (if t.time.micro = 0 then [] else [t.time.micro])
  let zone := match t.offset with
    | none => ""
    | some o =>
      if o = 0 then ", tzinfo=datetime.timezone.utc"
      else ", tzinfo=datetime.timezone(" ++ Calendar.Iso.durationText o ++ ")"
  "datetime.datetime(" ++ ", ".intercalate (parts.map toString) ++ zone ++ ")"

mutual

/-- A datum inside another. -/
def quoted : Datum → String
  | null => "None"
  | bool b => if b then "True" else "False"
  | int n => toString n
  | float x => x.toText
  | text s => Text.Quoted.ofString s
  | bytes b => quotedBytes b
  | date d =>
    "datetime.date(" ++ ", ".intercalate ([d.year, d.month, d.day].map toString) ++ ")"
  | timestamp t => timestampParts t
  | list items => "[" ++ ", ".intercalate (quotedAll items) ++ "]"
  | set items =>
    if items.isEmpty then "set()" else "\x7b" ++ ", ".intercalate (quotedAll items) ++ "\x7d"
  | mapping entries => "\x7b" ++ ", ".intercalate (quotedEntries entries) ++ "\x7d"
  | factory _ => "<factory>"

/-- Data inside another datum. -/
def quotedAll : List Datum → List String
  | [] => []
  | d :: rest => quoted d :: quotedAll rest

/-- Entries of a mapping. -/
def quotedEntries : List (Datum × Datum) → List String
  | [] => []
  | (k, v) :: rest => (quoted k ++ ": " ++ quoted v) :: quotedEntries rest

end

/-- A datum on its own. -/
def shown : Datum → String
  | text s => s
  | date d => d.text
  | timestamp t => t.date.text ++ " " ++ t.time.text ++ (match t.offset with
    | none => ""
    | some o => Calendar.Timestamp.offsetText o)
  | d => quoted d

end Slipway.Datum
