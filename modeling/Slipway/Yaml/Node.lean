import Slipway.Yaml.Lexer
import Slipway.Yaml.Tag

/-!
# `Slipway.Yaml.Node`: YAML documents as trees

A node is a scalar, a sequence or a mapping with its tag. `Node.ofTokens` reads the one document of
a text. A reference stands for the node with its anchor, which comes before it; an anchor is set
only once. Mappings are read with other mappings merged in. -/

set_option autoImplicit false

namespace Slipway.Yaml

/-- A node. -/
inductive Node where
  | scalar (tag : Tag) (content : List Char) (isWhole : Bool)
  | sequence (tag : Tag) (items : List Node)
  | mapping (tag : Tag) (entries : List (Node × Node))

namespace Node

instance : Inhabited Node := ⟨.scalar .null [] true⟩

/-- The tag of a node. -/
def tag : Node → Tag
  | scalar t _ _ => t
  | sequence t _ => t
  | mapping t _ => t

/-- The node of nothing. -/
def nothing : Node := .scalar .null [] true

/-! ### Merging -/

/-- The entries of a mapping that is merged in, or of several, of which the first come last. -/
def merged : Node → Except Defect (List (Node × Node))
  | mapping _ entries => .ok entries
  | sequence _ items =>
    items.reverse.foldlM (fun done n => match n with
      | mapping _ entries => .ok (done ++ entries)
      | _ => .error .notYaml) []
  | scalar _ _ _ => .error .notYaml

/-- The entries of a mapping by what is merged in and what is its own. The key of the value that
stands for a mapping is a text like any other. -/
def parts : List (Node × Node) → Except Defect (List (Node × Node) × List (Node × Node))
  | [] => .ok ([], [])
  | (key, value) :: rest => do
    let (others, own) ← parts rest
    match key with
    | scalar .merge _ _ => do
      let entries ← merged value
      return (entries ++ others, own)
    | scalar .default content isWhole =>
      return (others, (scalar .text content isWhole, value) :: own)
    | key => return (others, (key, value) :: own)

/-- A mapping with others merged in, which come first. -/
def ofEntries (tag : Tag) (entries : List (Node × Node)) : Except Defect Node :=
  if tag = .mapping || tag = .set then
    (parts entries).map fun p => mapping tag (p.1 ++ p.2)
  else .ok (mapping tag entries)

end Node

/-! ### Reading -/

/-- The tokens that are left, and the anchors set so far. An anchor is open while its own node is
read. -/
structure Reading where
  tokens : List Token
  handles : List (String × String)
  anchors : List (List Char × Option Node)

/-- The properties of a node. -/
structure Properties where
  anchor : Option (List Char)
  /-- The URI of the tag. -/
  tag : Option String

namespace Reading

/-- The next token. -/
def head? (r : Reading) : Option Token := r.tokens.head?

/-- The reading after the next token. -/
def next (r : Reading) : Reading := { r with tokens := r.tokens.drop 1 }

/-- Whether the next token is one of some. -/
def sees (r : Reading) (ts : List Token) : Bool := (r.head?.map ts.contains).getD false

/-- The URI of a tag: what its handle stands for, and the rest. -/
def uriOf (r : Reading) (handle : Option String) (rest : String) : Except Defect String :=
  match handle with
  | none => .ok rest
  | some h =>
    match r.handles.lookup h with
    | some lead => .ok (lead ++ rest)
    | none => .error .notYaml

/-- An anchor and a tag in either order, each if it is there. -/
def properties (r : Reading) : Except Defect (Properties × Reading) :=
  match r.tokens with
  | .anchor a :: .tag h rest :: _ => (r.uriOf h rest).map fun u => (⟨some a, some u⟩, r.next.next)
  | .tag h rest :: .anchor a :: _ => (r.uriOf h rest).map fun u => (⟨some a, some u⟩, r.next.next)
  | .anchor a :: _ => .ok (⟨some a, none⟩, r.next)
  | .tag h rest :: _ => (r.uriOf h rest).map fun u => (⟨none, some u⟩, r.next)
  | _ => .ok (⟨none, none⟩, r)

/-- The tag that leaves the kind of a node to its form. -/
def plainTag : String := "!"

/-- The tag of a collection, of one kind unless another is said. -/
def collectionTag (p : Properties) (usual : Tag) : Tag :=
  match p.tag with
  | none => usual
  | some u => if u = plainTag then usual else Tag.ofUri u

/-- The node of a scalar. -/
def scalarNode (p : Properties) (s : Scalar) : Node :=
  let tag := match p.tag with
    | none => if s.isPlain then Tag.ofPlain s.content else .text
    | some u => if u = plainTag then Tag.ofPlain s.content else Tag.ofUri u
  .scalar tag s.content s.isWhole

/-- Sets the anchor of a node that is about to be read. -/
def openAnchor (r : Reading) (p : Properties) : Except Defect Reading :=
  match p.anchor with
  | none => .ok r
  | some a =>
    if (r.anchors.lookup a).isSome then .error .notYaml
    else .ok { r with anchors := (a, none) :: r.anchors }

/-- Sets the anchor of a node that was read. -/
def closeAnchor (r : Reading) (p : Properties) (n : Node) : Reading :=
  match p.anchor with
  | none => r
  | some a => { r with anchors := (a, some n) :: r.anchors }

/-- The node of a reference. One to a node that is still open would never end, and is nothing. -/
def referred (r : Reading) (name : List Char) : Except Defect Node :=
  match r.anchors.lookup name with
  | some (some n) => .ok n
  | some none => .ok .nothing
  | none => .error .notYaml

mutual

/-- The node at the front. In a block it may be a block, and after a key a sequence that is not
indented further. Fuel is given for each token, and so in all that follows. -/
def node (inBlock unindented : Bool) : Nat → Reading → Except Defect (Node × Reading)
  | 0, _ => .error .notYaml
  | fuel + 1, r =>
    match r.head? with
    | some (.reference name) => (r.referred name).map fun n => (n, r.next)
    | _ =>
      match r.properties with
      | .error e => .error e
      | .ok (p, r) =>
        match r.openAnchor p with
        | .error e => .error e
        | .ok r =>
          (content inBlock unindented fuel p r).map fun c => (c.1, c.2.closeAnchor p c.1)

/-- What follows the properties of a node. -/
def content (inBlock unindented : Bool) :
    Nat → Properties → Reading → Except Defect (Node × Reading)
  | 0, _, _ => .error .notYaml
  | fuel + 1, p, r =>
    match r.head? with
    | some (.scalar s) => .ok (scalarNode p s, r.next)
    | some .flowSequenceStart =>
      (flowItems fuel true r.next).map fun c => (.sequence (collectionTag p .sequence) c.1, c.2)
    | some .flowMappingStart =>
      match flowEntries fuel true r.next with
      | .error e => .error e
      | .ok (entries, r) =>
        (Node.ofEntries (collectionTag p .mapping) entries).map fun n => (n, r)
    | some .blockEntry =>
      if unindented then
        (dashes fuel r).map fun c => (.sequence (collectionTag p .sequence) c.1, c.2)
      else empty p r
    | some .blockSequenceStart =>
      if inBlock then
        match dashes fuel r.next with
        | .error e => .error e
        | .ok (items, r) =>
          if r.sees [.blockEnd] then
            .ok (.sequence (collectionTag p .sequence) items, r.next)
          else .error .notYaml
      else empty p r
    | some .blockMappingStart =>
      if inBlock then
        match blockEntries fuel r.next with
        | .error e => .error e
        | .ok (entries, r) =>
          (Node.ofEntries (collectionTag p .mapping) entries).map fun n => (n, r)
      else empty p r
    | _ => empty p r
where
  /-- A node of which only properties are said. There has to be one. -/
  empty (p : Properties) (r : Reading) : Except Defect (Node × Reading) :=
    if p.anchor.isSome || p.tag.isSome then
      .ok (scalarNode p ⟨[], true, true⟩, r)
    else .error .notYaml

/-- A node, or nothing if one of some tokens comes next. -/
def nodeBefore (ends : List Token) (inBlock unindented : Bool) :
    Nat → Reading → Except Defect (Node × Reading)
  | 0, _ => .error .notYaml
  | fuel + 1, r => if r.sees ends then .ok (.nothing, r) else node inBlock unindented fuel r

/-- The items after dashes. -/
def dashes : Nat → Reading → Except Defect (List Node × Reading)
  | 0, _ => .error .notYaml
  | fuel + 1, r =>
    if r.sees [.blockEntry] then
      match nodeBefore [.blockEntry, .key, .value, .blockEnd] true false fuel r.next with
      | .error e => .error e
      | .ok (n, r) => (dashes fuel r).map fun c => (n :: c.1, c.2)
    else .ok ([], r)

/-- The entries of a block, up to its end. A value may be left out. -/
def blockEntries : Nat → Reading → Except Defect (List (Node × Node) × Reading)
  | 0, _ => .error .notYaml
  | fuel + 1, r =>
    let ends := [Token.key, .value, .blockEnd]
    if r.sees [.blockEnd] then .ok ([], r.next)
    else if !r.sees [.key] then .error .notYaml
    else
      match nodeBefore ends true true fuel r.next with
      | .error e => .error e
      | .ok (key, r) =>
        let value := if r.sees [.value] then nodeBefore ends true true fuel r.next
          else .ok (.nothing, r)
        match value with
        | .error e => .error e
        | .ok (value, r) => (blockEntries fuel r).map fun c => ((key, value) :: c.1, c.2)

/-- A key between brackets and its value, each of which may be left out. -/
def flowPair (close : Token) : Nat → Reading → Except Defect ((Node × Node) × Reading)
  | 0, _ => .error .notYaml
  | fuel + 1, r =>
    match nodeBefore [.value, .flowEntry, close] false false fuel r with
    | .error e => .error e
    | .ok (key, r) =>
      let value := if r.sees [.value] then nodeBefore [.flowEntry, close] false false fuel r.next
        else .ok (.nothing, r)
      value.map fun v => ((key, v.1), v.2)

/-- The items between brackets, up to the closing one. A key and its value are a mapping of one
entry. All but the first come after a comma. -/
def flowItems : Nat → Bool → Reading → Except Defect (List Node × Reading)
  | 0, _, _ => .error .notYaml
  | fuel + 1, isFirst, r =>
    if r.sees [.flowSequenceEnd] then .ok ([], r.next)
    else if !isFirst && !r.sees [.flowEntry] then .error .notYaml
    else
      let r := if isFirst then r else r.next
      if r.sees [.flowSequenceEnd] then .ok ([], r.next)
      else if r.sees [.key] then
        match flowPair .flowSequenceEnd fuel r.next with
        | .error e => .error e
        | .ok (entry, r) =>
          match Node.ofEntries .mapping [entry] with
          | .error e => .error e
          | .ok n => (flowItems fuel false r).map fun c => (n :: c.1, c.2)
      else
        match node false false fuel r with
        | .error e => .error e
        | .ok (n, r) => (flowItems fuel false r).map fun c => (n :: c.1, c.2)

/-- The entries between braces, up to the closing one. A node alone is a key without a value. All
but the first come after a comma. -/
def flowEntries : Nat → Bool → Reading → Except Defect (List (Node × Node) × Reading)
  | 0, _, _ => .error .notYaml
  | fuel + 1, isFirst, r =>
    if r.sees [.flowMappingEnd] then .ok ([], r.next)
    else if !isFirst && !r.sees [.flowEntry] then .error .notYaml
    else
      let r := if isFirst then r else r.next
      if r.sees [.flowMappingEnd] then .ok ([], r.next)
      else if r.sees [.key] then
        match flowPair .flowMappingEnd fuel r.next with
        | .error e => .error e
        | .ok (entry, r) => (flowEntries fuel false r).map fun c => (entry :: c.1, c.2)
      else
        match node false false fuel r with
        | .error e => .error e
        | .ok (n, r) => (flowEntries fuel false r).map fun c => ((n, .nothing) :: c.1, c.2)

end

/-! ### Documents -/

/-- The handles that need no directive. -/
def usualHandles : List (String × String) := [("!", "!"), ("!!", Tag.standard)]

/-- The directives at the front, given the handles so far and whether a version was said: each
handle and the version may be said once, and the version has to be one. -/
def directives : List (String × String) → Bool → List Token →
    Except Defect (List (String × String) × List Token)
  | handles, hasVersion, .directive d :: rest =>
    match d with
    | .version major =>
      if hasVersion || major ≠ 1 then .error .notYaml else directives handles true rest
    | .handle h lead =>
      if (handles.lookup h).isSome then .error .notYaml
      else directives ((h, lead) :: handles) hasVersion rest
    | .other => directives handles hasVersion rest
  | handles, _, rest => .ok (handles, rest)

/-- The end of a text after its document. -/
def finish (n : Node) (r : Reading) : Except Defect Node :=
  match r.tokens.dropWhile (· == .documentEnd) with
  | [.streamEnd] => .ok n
  | _ => .error .notYaml

/-- The document after its mark, which may be empty. -/
def afterMark (fuel : Nat) (r : Reading) : Except Defect Node :=
  match r.head? with
  | some (.directive _) => .error .notYaml
  | some .documentStart => .error .notYaml
  | some .documentEnd => finish .nothing r
  | some .streamEnd => finish .nothing r
  | _ => (node true false fuel r).bind fun c => finish c.1 c.2

end Reading

/-- The document of a text, none if it is empty. -/
def Node.ofTokens (ts : List Token) : Except Defect (Option Node) :=
  let fuel := 4 * ts.length + 4
  match ts with
  | [.streamEnd] => .ok none
  | .directive _ :: _ =>
    match Reading.directives [] false ts with
    | .error e => .error e
    | .ok (handles, rest) =>
      match rest with
      | .documentStart :: rest =>
        (Reading.afterMark fuel ⟨rest, handles ++ Reading.usualHandles, []⟩).map some
      | _ => .error .notYaml
  | .documentStart :: rest => (Reading.afterMark fuel ⟨rest, Reading.usualHandles, []⟩).map some
  | ts =>
    ((Reading.node true false fuel ⟨ts, Reading.usualHandles, []⟩).bind fun c =>
      Reading.finish c.1 c.2).map some

end Slipway.Yaml
