import Slipway.Text.Digit
import Slipway.Text.Utf8

/-!
# `Slipway.Archive`: tape archives of one file

An archive is a sequence of blocks of 512 bytes: a header and the content of each entry, each filled
up with zeros, then two blocks of zeros, and zeros up to a whole record of twenty blocks. A name
that is longer than its field, or not ASCII, is given whole in an entry of extended attributes that
goes before the file's own, and so is a number that has more digits than its field.
-/

set_option autoImplicit false

namespace Slipway

open Slipway.Text.Utf8 (Bytes)

/-- A regular file in an archive. -/
structure Archive.File where
  name : String
  content : Bytes
  mode : Int
  /-- Seconds since 1970. -/
  modified : Nat
deriving DecidableEq, Repr

namespace Archive

/-- Bytes of a block, and of a record of blocks. -/
def blockSize : Nat := 512
def recordSize : Nat := 20 * blockSize

/-- Bytes filled up with zeros to a multiple of a size. -/
def fill (size : Nat) (b : Bytes) : Bytes :=
  b ++ List.replicate ((size - b.length % size) % size) 0

/-- A field of a header: bytes cut or filled up with zeros to a width. -/
def field (width : Nat) (b : Bytes) : Bytes :=
  b.take width ++ List.replicate (width - b.length) 0

/-- A text in a field, with a question mark for what is not ASCII. -/
def textField (width : Nat) (s : String) : Bytes :=
  field width (s.toList.map fun c => if c.toNat < 0x80 then UInt8.ofNat c.toNat else 63)

/-- A number in a field: octal digits and a zero byte. -/
def octalField (width n : Nat) : Bytes :=
  ((Nat.toDigits 8 n).map fun c => UInt8.ofNat c.toNat) |> fun ds =>
    List.replicate (width - 1 - ds.length) 48 ++ ds ++ [0]

/-- The fields of a header before and after its checksum. A file has the type `0`, an entry of
extended attributes the type `x`. Owner, group and devices are not said. -/
def headerFront (name : String) (mode size modified : Nat) : Bytes :=
  textField 100 name ++ octalField 8 mode ++ octalField 8 0 ++ octalField 8 0
    ++ octalField 12 size ++ octalField 12 modified
def headerBack (type : Char) : Bytes :=
  fill (blockSize - 156) (UInt8.ofNat type.toNat :: (textField 100 "" ++ Text.Utf8.ofString "ustar"
    ++ [0] ++ Text.Utf8.ofString "00"))

/-- The sum of bytes. -/
def sum (b : Bytes) : Nat := b.foldl (fun n x => n + x.toNat) 0

/-- A header. Its checksum is the sum of its bytes with blanks in place of the checksum. -/
def header (type : Char) (name : String) (mode size modified : Nat) : Bytes :=
  let front := headerFront name mode size modified
  let back := headerBack type
  front ++ octalField 7 (sum front + 8 * 32 + sum back) ++ [32] ++ back

/-- Whether a name needs an entry of extended attributes. -/
def isLongName (name : String) : Bool :=
  100 < name.length || name.toList.any (0x80 ≤ ·.toNat)

/-- An extended attribute: its own length in decimal, a blank, the keyword, an equals sign, the
value and a line end. The length counts its own digits. -/
def extended (keyword value : String) : Bytes :=
  let rest := Text.Utf8.ofString (" " ++ keyword ++ "=" ++ value ++ "\n")
  let grown := fun n => rest.length + (toString n).length
  Text.Utf8.ofString (toString (grown (grown (grown rest.length)))) ++ rest

/-- Whether a number has more octal digits than a field of twelve bytes holds. -/
def isLongNumber (n : Nat) : Bool := Nat.pow 8 11 ≤ n

/-- What the field of a number says. One that has no place there is not said. -/
def inField (n : Nat) : Nat := if isLongNumber n then 0 else n

/-- The entry of extended attributes, if there are any. -/
def attributesEntry (attributes : Bytes) : Bytes :=
  if attributes.isEmpty then []
  else header 'x' "././@PaxHeader" 0 attributes.length 0 ++ fill blockSize attributes

namespace File

/-- The permission bits of a file. -/
def permissions (f : File) : Nat := (Int.emod f.mode 4096).toNat

/-- What a file's header has no place for. -/
def attributes (f : File) : Bytes :=
  (if isLongName f.name then extended "path" f.name else [])
    ++ (if isLongNumber f.content.length then extended "size" (toString f.content.length) else [])
    ++ (if isLongNumber f.modified then extended "mtime" (toString f.modified) else [])

/-- The archive of a file. -/
def archive (f : File) : Bytes :=
  fill recordSize
    (attributesEntry f.attributes
      ++ header '0' f.name f.permissions (inField f.content.length) (inField f.modified)
      ++ fill blockSize f.content ++ List.replicate (2 * blockSize) 0)

/-- The name that a reader of the archive finds: a header field ends at its first zero byte. -/
def foundName (f : File) : String :=
  if isLongName f.name then f.name else String.ofList (f.name.toList.takeWhile (·.toNat != 0))

end File
end Archive
end Slipway
