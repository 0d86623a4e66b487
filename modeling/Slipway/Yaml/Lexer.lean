import Slipway.Yaml.Scalar

/-!
# `Slipway.Yaml.Lexer`: YAML texts cut into tokens

Two things are not written but shown by the layout: the starts and ends of block collections, which
follow from the indentation, and that a node is a key, which is known only once its colon comes. So
the lexer keeps the indentation of the open blocks, and for each level of brackets the place at
which a key may have started; a colon on the same line puts the token of a key there. -/

set_option autoImplicit false

namespace Slipway.Yaml

/-- A place at which a key may have started: the number of its first token, and whether it has to be
a key, for nothing else could stand there. -/
structure PossibleKey where
  token : Nat
  isRequired : Bool
  index : Nat
  line : Nat
  column : Nat
deriving Repr

/-- A text read so far. -/
structure Lexer where
  place : Cursor
  /-- The column of the innermost block, and those of the ones around it. -/
  indent : Int
  indents : List Int
  /-- How many brackets are open. -/
  depth : Nat
  /-- Whether a key may start here. -/
  allowsKey : Bool
  /-- The possible keys by depth. -/
  keys : List (Nat × PossibleKey)
  tokens : Array Token

namespace Lexer

/-- The lexer at the front of a text. -/
def start (text : List Char) : Lexer := ⟨.start text, -1, [], 0, true, [], #[]⟩

/-- Whether brackets are open. -/
def inFlow (s : Lexer) : Bool := s.depth != 0

/-- The lexer with one more token. -/
def emit (s : Lexer) (t : Token) : Lexer := { s with tokens := s.tokens.push t }

/-- The lexer with a token of some characters. -/
def take (s : Lexer) (t : Token) (length : Nat) : Lexer :=
  { s.emit t with place := s.place.skip length }

/-- The lexer with a token put in at a place. -/
def insert (s : Lexer) (n : Nat) (t : Token) : Lexer :=
  { s with tokens := (s.tokens.extract 0 n).push t ++ s.tokens.extract n s.tokens.size }

/-- Blocks that are indented further than a column are closed: how many there are, and the ones that
stay open. -/
def closeBlocks (column : Int) : Int → List Int → Nat × Int × List Int
  | indent, [] => (0, indent, [])
  | indent, outer :: rest =>
    if column < indent then
      let r := closeBlocks column outer rest
      (r.1 + 1, r.2)
    else (0, indent, outer :: rest)

/-- The lexer with the blocks closed that are indented further than a column. Brackets keep blocks
open. -/
def unwind (s : Lexer) (column : Int) : Lexer :=
  if s.inFlow then s
  else
    let r := closeBlocks column s.indent s.indents
    { s with
      indent := r.2.1
      indents := r.2.2
      tokens := s.tokens ++ (List.replicate r.1 Token.blockEnd).toArray }

/-- Whether a block that starts in a column is a new one. -/
def opensBlock (s : Lexer) (column : Nat) : Bool := s.indent < (column : Int)

/-- The lexer with a block opened in a column. -/
def openBlock (s : Lexer) (column : Nat) : Lexer :=
  { s with indents := s.indent :: s.indents, indent := column }

/-! ### Possible keys -/

/-- The longest that a key may be, up to its colon. -/
def maxKeyLength : Nat := 1024

/-- Whether a key can still get its colon: on its own line, and not too far on. -/
def isLive (c : Cursor) (k : PossibleKey) : Bool :=
  k.line == c.line && c.index - k.index ≤ maxKeyLength

/-- The lexer without the keys that get no colon any more. None of them may be required. -/
def dropStale (s : Lexer) : Except Defect Lexer :=
  if s.keys.any fun k => !isLive s.place k.2 && k.2.isRequired then .error .notYaml
  else .ok { s with keys := s.keys.filter fun k => isLive s.place k.2 }

/-- The lexer without the possible key of this depth, which may not be required. -/
def dropKey (s : Lexer) : Except Defect Lexer :=
  match s.keys.lookup s.depth with
  | none => .ok s
  | some k =>
    if k.isRequired then .error .notYaml
    else .ok { s with keys := s.keys.filter (·.1 != s.depth) }

/-- The lexer with a possible key here, if a key may start here. -/
def saveKey (s : Lexer) : Except Defect Lexer :=
  if s.allowsKey then
    (dropKey s).map fun s =>
      let required := !s.inFlow && s.indent == (s.place.column : Int)
      { s with
        keys := (s.depth, ⟨s.tokens.size, required, s.place.index, s.place.line, s.place.column⟩)
          :: s.keys }
  else .ok s

/-! ### Between tokens -/

/-- The lexer after spaces, comments and breaks. After a break a key may start, unless brackets are
open. Fuel is given for each line. -/
def skipBlanks : Nat → Lexer → Lexer
  | 0, s => s
  | fuel + 1, s =>
    let c := s.place.skipSpaces.skipComment
    match c.break? with
    | some (_, after) =>
      skipBlanks fuel { s with place := after, allowsKey := s.allowsKey || !s.inFlow }
    | none => { s with place := c }

/-- The lexer after a byte order mark at the front of the text. -/
def skipMark (s : Lexer) : Lexer :=
  if s.place.index = 0 && s.place.head?.map Char.toNat == some 0xFEFF then
    { s with place := s.place.next }
  else s

/-! ### Directives, properties and references -/

/-- The end of a line, after an optional comment. -/
def lineEnd (c : Cursor) : Except Defect Cursor := Scalar.nextLine c

/-- Digits at a place, at least one. -/
def digits (c : Cursor) : Except Defect (Nat × Cursor) :=
  match (c.run Char.isDigit).filterMap Text.Digit.asciiValue? with
  | [] => .error .notYaml
  | ds => .ok (Text.Digit.number 10 ds, c.skipRun Char.isDigit)

/-- A version after its directive: two numbers with a point between them. -/
def version (c : Cursor) : Except Defect (Directive × Cursor) := do
  let (major, c) ← digits c.skipSpaces
  if !c.sees '.' then .error .notYaml
  else
    let (_, c) ← digits c.next
    if endsField c.head? then .ok (.version major, c) else .error .notYaml

/-- The handle of a tag: one exclamation mark, or a name between two. A mark that a space follows is
a handle of its own; in any other place it needs its second mark. -/
def handle (c : Cursor) : Except Defect (String × Cursor) :=
  if !c.sees '!' then .error .notYaml
  else
    let name := c.next.run inName
    let after := c.next.skip name.length
    if c.get? 1 = some ' ' then .ok ("!", c.next)
    else if after.sees '!' then .ok (String.ofList ('!' :: (name ++ ['!'])), after.next)
    else .error .notYaml

/-- Whether a character may stand in the URI of a tag. -/
def inUri (c : Char) : Bool :=
  c.isAlphanum || "-;/?:@&=+$,_.!~*'()[]".toList.contains c

/-- The bytes that escapes in a URI write: a percent sign and two digits for each. Fuel is given for
each byte. -/
def escapes : Nat → Cursor → Except Defect (Text.Utf8.Bytes × Cursor)
  | 0, c => .ok ([], c)
  | fuel + 1, c =>
    if c.sees '%' then
      match Scalar.codePoint? 2 c.next.rest with
      | none => .error .notYaml
      | some n => (escapes fuel (c.skip 3)).map fun r => (UInt8.ofNat n :: r.1, r.2)
    else .ok ([], c)

/-- The characters of a URI, with its escapes replaced. Fuel is given for each character. -/
def uriFrom : Nat → Cursor → Except Defect (List Char × Cursor)
  | 0, c => .ok ([], c)
  | fuel + 1, c =>
    match c.head? with
    | none => .ok ([], c)
    | some x =>
      if x = '%' then
        match escapes (c.rest.length + 1) c with
        | .error e => .error e
        | .ok (bytes, after) =>
          match Text.Utf8.decode bytes with
          | .error _ => .error .notYaml
          | .ok part => (uriFrom fuel after).map fun r => (part ++ r.1, r.2)
      else if inUri x then (uriFrom fuel c.next).map fun r => (x :: r.1, r.2)
      else .ok ([], c)

/-- The URI at a place, which may not be empty. -/
def uri (c : Cursor) : Except Defect (String × Cursor) :=
  match c.head? with
  | some x =>
    if x = '%' || inUri x then
      (uriFrom (c.rest.length + 1) c).map fun r => (String.ofList r.1, r.2)
    else .error .notYaml
  | none => .error .notYaml

/-- A handle and what it stands for, after their directive. -/
def tagHandle (c : Cursor) : Except Defect (Directive × Cursor) := do
  let (name, c) ← handle c.skipSpaces
  if !c.sees ' ' then .error .notYaml
  else
    let (lead, c) ← uri c.skipSpaces
    if endsField c.head? then .ok (.handle name lead, c) else .error .notYaml

/-- The directive at a place, which is at its percent sign, up to the next line. Unknown ones are
left out. -/
def directive (c : Cursor) : Except Defect (Directive × Cursor) := do
  let name := c.next.run inName
  let after := c.next.skip name.length
  if name.isEmpty || !endsField after.head? then .error .notYaml
  else
    let (d, c) ←
      if name = "YAML".toList then version after
      else if name = "TAG".toList then tagHandle after
      else .ok (.other, after.skipRun fun x => !isBreak x)
    let next ← lineEnd c
    return (d, next)

/-- Whether a name of an anchor may end before a character. -/
def endsAnchor (c : Option Char) : Bool :=
  endsWord c || (c.map ['?', ':', ',', ']', '\x7d', '%', '@', '\x60'].contains).getD false

/-- The name after an indicator of an anchor or a reference. -/
def anchorName (c : Cursor) : Except Defect (List Char × Cursor) :=
  let name := c.next.run inName
  let after := c.next.skip name.length
  if name.isEmpty || !endsAnchor after.head? then .error .notYaml else .ok (name, after)

/-- Whether the tag at a place has a handle of its own: a second exclamation mark in its word. -/
def hasHandle (c : Cursor) : Bool := (c.next.run fun x => !endsField (some x)).contains '!'

/-- The tag at a place, which is at its exclamation mark. -/
def tag (c : Cursor) : Except Defect (Token × Cursor) := do
  let (t, after) ←
    if c.get? 1 = some '<' then do
      let (rest, after) ← uri (c.skip 2)
      if after.sees '>' then .ok (Token.tag none rest, after.next) else .error .notYaml
    else if endsWord (c.get? 1) then .ok (Token.tag none "!", c.next)
    else do
      let (name, after) ← if hasHandle c then handle c else .ok ("!", c.next)
      let (rest, after) ← uri after
      .ok (Token.tag (some name) rest, after)
  if endsField after.head? then return (t, after) else .error .notYaml

/-! ### Tokens -/

/-- The end of the text. -/
def endStream (s : Lexer) : Except Defect Lexer :=
  (dropKey (s.unwind (-1))).map fun s => { s.emit .streamEnd with allowsKey := false, keys := [] }

/-- A mark between documents, or a directive: all blocks are closed before it. -/
def betweenDocuments (s : Lexer) (t : Token) (after : Cursor) : Except Defect Lexer :=
  (dropKey (s.unwind (-1))).map fun s => { s.emit t with allowsKey := false, place := after }

/-- An opening bracket, which may start a key. -/
def openBracket (s : Lexer) (t : Token) : Except Defect Lexer :=
  s.saveKey.map fun s => { s.take t 1 with depth := s.depth + 1, allowsKey := true }

/-- A closing bracket. -/
def closeBracket (s : Lexer) (t : Token) : Except Defect Lexer :=
  s.dropKey.map fun s => { s.take t 1 with depth := s.depth - 1, allowsKey := false }

/-- A comma between brackets. -/
def comma (s : Lexer) : Except Defect Lexer :=
  s.dropKey.map fun s => { s.take .flowEntry 1 with allowsKey := true }

/-- The lexer before an indicator of a block, which starts a block if it is indented further. -/
def enterBlock (s : Lexer) (t : Token) : Except Defect Lexer :=
  if s.inFlow then .ok s
  else if !s.allowsKey then .error .notYaml
  else if s.opensBlock s.place.column then .ok ((s.openBlock s.place.column).emit t)
  else .ok s

/-- A dash before an entry. -/
def dash (s : Lexer) : Except Defect Lexer := do
  let s ← s.enterBlock .blockSequenceStart
  let s ← s.dropKey
  return { s.take .blockEntry 1 with allowsKey := true }

/-- A question mark before a key. -/
def questionMark (s : Lexer) : Except Defect Lexer := do
  let s ← s.enterBlock .blockMappingStart
  let s ← s.dropKey
  return { s.take .key 1 with allowsKey := !s.inFlow }

/-- A colon after a key that started at a place. -/
def colonAfter (s : Lexer) (k : PossibleKey) : Lexer :=
  let s := { s with keys := s.keys.filter (·.1 != s.depth) }
  let s := s.insert k.token .key
  let s := if !s.inFlow && s.opensBlock k.column then
      (s.openBlock k.column).insert k.token .blockMappingStart
    else s
  { s.take .value 1 with allowsKey := false }

/-- A colon. -/
def colon (s : Lexer) : Except Defect Lexer :=
  match s.keys.lookup s.depth with
  | some k => .ok (s.colonAfter k)
  | none => do
    let s ← s.enterBlock .blockMappingStart
    let s ← s.dropKey
    return { s.take .value 1 with allowsKey := !s.inFlow }

/-- A token that may start a key, read off the text; no key may start after it. -/
def word (s : Lexer) (read : Cursor → Except Defect (Token × Cursor)) : Except Defect Lexer := do
  let s ← s.saveKey
  let (t, after) ← read s.place
  return { s.emit t with allowsKey := false, place := after }

/-- A block scalar, after which a key may start. -/
def blockScalar (s : Lexer) (folded : Bool) : Except Defect Lexer := do
  let s ← s.dropKey
  let (scalar, after) ← Scalar.block folded s.indent s.place
  return { s.emit (.scalar scalar) with allowsKey := true, place := after }

/-- A plain scalar. After one that ended with its line a key may start. -/
def plainScalar (s : Lexer) : Except Defect Lexer :=
  s.saveKey.map fun s =>
    let p := Scalar.plain s.inFlow (s.indent + 1) s.place
    { s.emit (.scalar ⟨p.content, true, true⟩) with allowsKey := p.endedLine, place := p.place }

/-- Whether a plain scalar may start with a character, which another one follows. -/
def startsPlain (s : Lexer) (c : Char) : Bool :=
  !(isBreak c || isInset c || "-?:,[]\x7b\x7d#&*!|>'\"%@\x60".toList.contains c)
    || (!endsWord (s.place.get? 1) && (c == '-' || (!s.inFlow && (c == '?' || c == ':'))))

/-- The token that starts with a character. -/
def tokenAt (s : Lexer) (c : Char) : Except Defect Lexer :=
  let standsAlone := endsWord (s.place.get? 1)
  let atFront := s.place.column = 0
  if c = '%' && atFront then do
    let (d, after) ← directive s.place
    s.betweenDocuments (.directive d) after
  else if atFront && s.place.seesMark ['-', '-', '-'] then
    s.betweenDocuments .documentStart (s.place.skip 3)
  else if atFront && s.place.seesMark ['.', '.', '.'] then
    s.betweenDocuments .documentEnd (s.place.skip 3)
  else if c = '[' then s.openBracket .flowSequenceStart
  else if c = '\x7b' then s.openBracket .flowMappingStart
  else if c = ']' then s.closeBracket .flowSequenceEnd
  else if c = '\x7d' then s.closeBracket .flowMappingEnd
  else if c = ',' then s.comma
  else if c = '-' && standsAlone then s.dash
  else if c = '?' && (s.inFlow || standsAlone) then s.questionMark
  else if c = ':' && (s.inFlow || standsAlone) then s.colon
  else if c = '*' then s.word fun p => (anchorName p).map fun r => (.reference r.1, r.2)
  else if c = '&' then s.word fun p => (anchorName p).map fun r => (.anchor r.1, r.2)
  else if c = '!' then s.word tag
  else if c = '|' && !s.inFlow then s.blockScalar false
  else if c = '>' && !s.inFlow then s.blockScalar true
  else if c = '\'' then s.word fun p => (Scalar.quoted false p).map fun r => (.scalar r.1, r.2)
  else if c = '"' then s.word fun p => (Scalar.quoted true p).map fun r => (.scalar r.1, r.2)
  else if s.startsPlain c then s.plainScalar
  else .error .notYaml

/-- The tokens from here on. Fuel is given for each token. -/
def run : Nat → Lexer → Except Defect (List Token)
  | 0, _ => .error .notYaml
  | fuel + 1, s =>
    let s := skipBlanks (s.place.rest.length + 1) s.skipMark
    match s.dropStale with
    | .error e => .error e
    | .ok s =>
      let s := s.unwind s.place.column
      match s.place.head? with
      | none => s.endStream.map fun s => s.tokens.toList
      | some c =>
        match s.tokenAt c with
        | .error e => .error e
        | .ok s => run fuel s

end Lexer

/-- The tokens of a text, of which there are no more than it has characters, and its end. -/
def tokens (text : List Char) : Except Defect (List Token) :=
  Lexer.run (text.length + 2) (Lexer.start text)

end Slipway.Yaml
