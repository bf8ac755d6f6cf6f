import HostTelemetry.Text.Stream
import HostTelemetry.Yaml.Kind
import HostTelemetry.Yaml.Lexer

/-!
# From tokens to nodes

A document is a graph of scalars, sequences and mappings: an alias is the node with the anchor it
names, also inside that node. Nodes are numbered in the order in which they begin.
-/

set_option autoImplicit false

namespace HostTelemetry.Yaml

inductive Node
  | scalar (kind : NodeKind) (text : Text)
  | sequence (kind : NodeKind) (items : List Nat)
  | mapping (kind : NodeKind) (pairs : List (Nat × Nat))

namespace Node

def kind : Node → NodeKind
  | .scalar k _ | .sequence k _ | .mapping k _ => k

def withKind (k : NodeKind) : Node → Node
  | .scalar _ t => .scalar k t
  | .sequence _ xs => .sequence k xs
  | .mapping _ ps => .mapping k ps

end Node

structure Graph where
  nodes : Array Node

namespace Graph

def node (g : Graph) (i : Nat) : Node := g.nodes.getD i (.scalar .null [])

def set (g : Graph) (i : Nat) (n : Node) : Graph := ⟨g.nodes.setIfInBounds i n⟩

end Graph

structure Composer where
  tokens : List Token
  fault : Option Fault
  handles : List (Text × Text)
  anchors : List (Text × Nat)
  graph : Graph

abbrev Compose := StateT Composer (Except Fault)

namespace Compose

def fail {α : Type} : Compose α := throw .yaml

/-- The next token; past the last one the fault that ended the tokens. -/
def peek : Compose Token := do
  let s ← get
  match s.tokens with
  | t :: _ => pure t
  | [] => throw (s.fault.getD .yaml)

def drop : Compose Unit := do
  let _ ← peek
  modify fun s => { s with tokens := s.tokens.drop 1 }

def nextIs (ts : List Token) : Compose Bool := do
  let t ← peek
  pure (ts.contains t)

def atEnd : Compose Bool := do
  let t ← peek
  let s ← get
  pure (t == .streamEnd && s.fault.isNone)

def add (anchor : Option Text) (n : Node) : Compose Nat := do
  let s ← get
  let id := s.graph.nodes.size
  let anchors ← match anchor with
    | none => pure s.anchors
    | some a =>
      if (s.anchors.find? fun p => p.1 == a).isSome then fail else pure ((a, id) :: s.anchors)
  set { s with graph := ⟨s.graph.nodes.push n⟩, anchors := anchors }
  pure id

def fill (id : Nat) (n : Node) : Compose Unit :=
  modify fun s => { s with graph := s.graph.set id n }

def emptyScalar : Compose Nat := add none (.scalar .null [])

def aliased (name : Text) : Compose Nat := do
  let s ← get
  match s.anchors.find? fun p => p.1 == name with
  | some p => pure p.2
  | none => fail

def fullTag (t : WrittenTag) : Compose Text := do
  match t.handle with
  | none => pure t.suffix
  | some h =>
    let s ← get
    match s.handles.find? fun p => p.1 == h with
    | some p => pure (p.2 ++ t.suffix)
    | none => fail

def anchor? : Compose (Option Text) := do
  match ← peek with
  | .anchor a => do
    drop
    pure (some a)
  | _ => pure none

def tag? : Compose (Option WrittenTag) := do
  match ← peek with
  | .tag t => do
    drop
    pure (some t)
  | _ => pure none

def properties : Compose (Option Text × Option Text) := do
  let first ← anchor?
  let tag ← tag?
  let anchor ← if first.isNone && tag.isSome then anchor? else pure first
  match tag with
  | none => pure (anchor, none)
  | some t => do
    let full ← fullTag t
    pure (anchor, some full)

def isOpen (tag : Option Text) : Bool := tag.isNone || tag == some (lit "!")

def kindOr (default : NodeKind) (tag : Option Text) : NodeKind :=
  if isOpen tag then default else NodeKind.ofTag (tag.getD [])

def scalarKind (tag : Option Text) (plain : Bool) (t : Text) : NodeKind :=
  if (plain && tag.isNone) || tag == some (lit "!") then NodeKind.ofScalar t else kindOr .str tag

/-- Properties without content stand for an empty scalar. -/
def bare (anchor tag : Option Text) : Compose Nat :=
  if anchor.isSome || tag.isSome then add anchor (.scalar (kindOr .null tag) []) else fail

/-- A sequence; its number is taken before those of its items. -/
def sequence (d : Nat) (anchor tag : Option Text) (items : Compose (List Nat)) : Compose Nat := do
  if d = 0 then throw .tooDeep
  else
    let kind := kindOr .seq tag
    let id ← add anchor (.sequence kind [])
    let xs ← items
    fill id (.sequence kind xs)
    pure id

def mapping (d : Nat) (anchor tag : Option Text) (pairs : Compose (List (Nat × Nat))) :
    Compose Nat := do
  if d = 0 then throw .tooDeep
  else
    let kind := kindOr .map tag
    let id ← add anchor (.mapping kind [])
    let ps ← pairs
    fill id (.mapping kind ps)
    pure id

mutual

/-- A node, perhaps one of block style, perhaps a sequence that is not indented. At most `d`
collections stand inside each other. -/
def node : (n d : Nat) → (block loose : Bool) → Compose Nat
  | 0, _, _, _ => fail
  | n + 1, d, block, loose => do
    match ← peek with
    | .alias a => do
      drop
      aliased a
    | _ => do
      let (anchor, tag) ← properties
      match ← peek with
      | .scalar t plain => do
        drop
        add anchor (.scalar (scalarKind tag plain t) t)
      | .flowSequence => do
        drop
        sequence d anchor tag (flowItems n (d - 1) true)
      | .flowMapping => do
        drop
        mapping d anchor tag (flowPairs n (d - 1) true)
      | .blockSequence =>
        if block then do
          drop
          sequence d anchor tag (blockItems n (d - 1))
        else bare anchor tag
      | .blockMapping =>
        if block then do
          drop
          mapping d anchor tag (blockPairs n (d - 1))
        else bare anchor tag
      | .blockEntry =>
        if loose then sequence d anchor tag (looseItems n (d - 1)) else bare anchor tag
      | _ => bare anchor tag

def blockItems : (n d : Nat) → Compose (List Nat)
  | 0, _ => fail
  | n + 1, d => do
    match ← peek with
    | .blockEntry => do
      drop
      let x ← if ← nextIs [.blockEntry, .blockEnd] then emptyScalar else node n d true false
      let xs ← blockItems n d
      pure (x :: xs)
    | .blockEnd => do
      drop
      pure []
    | _ => fail

def looseItems : (n d : Nat) → Compose (List Nat)
  | 0, _ => fail
  | n + 1, d => do
    match ← peek with
    | .blockEntry => do
      drop
      let x ← if ← nextIs [.blockEntry, .key, .value, .blockEnd] then emptyScalar
        else node n d true false
      let xs ← looseItems n d
      pure (x :: xs)
    | _ => pure []

def blockPairs : (n d : Nat) → Compose (List (Nat × Nat))
  | 0, _ => fail
  | n + 1, d => do
    match ← peek with
    | .key => do
      drop
      let k ← if ← nextIs [.key, .value, .blockEnd] then emptyScalar else node n d true true
      let v ← blockValue n d
      let ps ← blockPairs n d
      pure ((k, v) :: ps)
    | .blockEnd => do
      drop
      pure []
    | _ => fail

def blockValue : (n d : Nat) → Compose Nat
  | 0, _ => fail
  | n + 1, d => do
    if ← nextIs [.value] then
      drop
      if ← nextIs [.key, .value, .blockEnd] then emptyScalar else node n d true true
    else emptyScalar

def flowItems : (n d : Nat) → (first : Bool) → Compose (List Nat)
  | 0, _, _ => fail
  | n + 1, d, first => do
    if !(← nextIs [.flowSequenceEnd]) && !first then
      if ← nextIs [.flowEntry] then drop else fail
    match ← peek with
    | .flowSequenceEnd => do
      drop
      pure []
    | .key => do
      let x ← mapping d none none (singlePair n (d - 1))
      let xs ← flowItems n d false
      pure (x :: xs)
    | _ => do
      let x ← node n d false false
      let xs ← flowItems n d false
      pure (x :: xs)

/-- The one pair of a mapping without braces inside a sequence. -/
def singlePair : (n d : Nat) → Compose (List (Nat × Nat))
  | 0, _ => fail
  | n + 1, d => do
    drop
    let k ← if ← nextIs [.value, .flowEntry, .flowSequenceEnd] then emptyScalar
      else node n d false false
    let v ← flowValue n d .flowSequenceEnd
    pure [(k, v)]

def flowValue : (n d : Nat) → (close : Token) → Compose Nat
  | 0, _, _ => fail
  | n + 1, d, close => do
    if ← nextIs [.value] then
      drop
      if ← nextIs [.flowEntry, close] then emptyScalar else node n d false false
    else emptyScalar

def flowPairs : (n d : Nat) → (first : Bool) → Compose (List (Nat × Nat))
  | 0, _, _ => fail
  | n + 1, d, first => do
    if !(← nextIs [.flowMappingEnd]) && !first then
      if ← nextIs [.flowEntry] then drop else fail
    match ← peek with
    | .flowMappingEnd => do
      drop
      pure []
    | .key => do
      drop
      let k ← if ← nextIs [.value, .flowEntry, .flowMappingEnd] then emptyScalar
        else node n d false false
      let v ← flowValue n d .flowMappingEnd
      let ps ← flowPairs n d false
      pure ((k, v) :: ps)
    | _ => do
      let k ← node n d false false
      let v ← emptyScalar
      let ps ← flowPairs n d false
      pure ((k, v) :: ps)

end

def directives : (n : Nat) → (versioned : Bool) → List (Text × Text) → Compose (List (Text × Text))
  | 0, _, hs => pure hs
  | n + 1, versioned, hs => do
    match ← peek with
    | .directive (.version major _) => do
      drop
      if versioned || major ≠ 1 then fail else directives n true hs
    | .directive (.tag h t) => do
      drop
      if (hs.find? fun p => p.1 == h).isSome then fail else directives n versioned ((h, t) :: hs)
    | .directive .other => do
      drop
      directives n versioned hs
    | _ => pure hs

def usualHandles : List (Text × Text) := [(lit "!", lit "!"), (lit "!!", NodeKind.tagStart)]

def content (n d : Nat) : Compose Nat := do
  match ← peek with
  | .directive _ | .documentStart | .documentEnd | .streamEnd => emptyScalar
  | _ => node n d true false

def skipEnds : (n : Nat) → Compose Unit
  | 0 => pure ()
  | n + 1 => do
    if ← nextIs [.documentEnd] then
      drop
      skipEnds n

/-- The root of the only document. Directives of a second one are read before it is refused. -/
def single (n d : Nat) : Compose (Option Nat) := do
  let t ← peek
  if ← atEnd then pure none
  else
    let explicit := match t with
      | .directive _ | .documentStart => true
      | _ => false
    let handles ← directives n false []
    modify fun s => { s with handles := handles ++ usualHandles }
    let root ← if explicit then do
        if ← nextIs [.documentStart] then
          drop
          content n d
        else fail
      else node n d true false
    skipEnds n
    if ← atEnd then pure (some root)
    else
      let _ ← directives n false []
      fail

end Compose

def isAllowed (c : CodePoint) : Bool :=
  c = 9 || c = 10 || c = 13 || (0x20 ≤ c && c ≤ 0x7E) || c = 0x85 || (0xA0 ≤ c && c ≤ 0xD7FF) ||
    (0xE000 ≤ c && c ≤ 0xFFFD) || 0x10000 ≤ c

/-- A text is looked through in parts of this size, the first two at once. -/
abbrev partSize : Nat := 4096

/-- The parts in front of the first one that cannot be read or holds what is not allowed, and the
fault that is met there. The first part has `size` code points; `n` bounds their number. -/
def admitted (fault : Option Utf8.Unreadable) : (n size : Nat) → Text → Text × Option Fault
  | 0, _, _ => ([], none)
  | n + 1, size, t =>
    if fault.isSome ∧ t.length < size then ([], fault.map .unreadable)
    else if t.isEmpty then ([], none)
    else if (t.take size).all isAllowed then
      let (more, f) := admitted fault n partSize (t.drop size)
      (t.take size ++ more, f)
    else ([], some .yaml)

/-- How often a reader may go on inside itself: to collections in each other, and beyond the first
to mappings that are merged into each other and to mappings that are values of each other. -/
structure Limits where
  nesting : Nat
  merging : Nat
  following : Nat

def streamTokens (s : TextStream) : List Token × Option Fault :=
  let (t, fault) := admitted s.fault (s.text.length + 1) (2 * partSize) s.text
  tokens t fault

def compose (limits : Limits) (s : TextStream) : Except Fault (Option Nat × Graph) := do
  let (ts, fault) := streamTokens s
  let start : Composer := ⟨ts, fault, Compose.usualHandles, [], ⟨#[]⟩⟩
  let (root, s) ← (Compose.single (6 * ts.length + 20) limits.nesting).run start
  pure (root, s.graph)

end HostTelemetry.Yaml
