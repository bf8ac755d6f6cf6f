import HostTelemetry.Yaml.Node
import HostTelemetry.Yaml.Scalar

/-!
# From nodes to values

Scalars become values at once; collections are begun first and filled later, in the order in
which they were begun, so that a collection can hold itself. Mappings that are merged into
another one are put in front of its pairs. What is used of a document is a mapping at its top.
-/

set_option autoImplicit false

namespace HostTelemetry.Yaml

inductive Built
  | scalar (v : Value)
  | list (items : List Nat)
  | tuples (items : List (Nat × Nat))
  | dict (entries : List (Value × Nat))
  | set (keys : List Value)

structure Builder where
  graph : Graph
  built : List (Nat × Built)
  /-- Collections that are begun and not filled, in the order of their beginning. -/
  waiting : List Nat

abbrev Build := StateT Builder (Except Fault)

namespace Build

def node (id : Nat) : Build Node := do
  let s ← get
  pure (s.graph.node id)

def setNode (id : Nat) (n : Node) : Build Unit :=
  modify fun s => { s with graph := s.graph.set id n }

def built? (id : Nat) : Build (Option Built) := do
  let s ← get
  pure ((s.built.find? fun b => b.1 == id).map Prod.snd)

def put (id : Nat) (b : Built) : Build Unit :=
  modify fun s => { s with built := (id, b) :: s.built }

def wait (id : Nat) : Build Unit := modify fun s => { s with waiting := s.waiting ++ [id] }

/-- The text of a scalar, or of the value that a mapping has under the sign for it; `n` bounds how
often this is followed. -/
def scalarText : (n : Nat) → (id : Nat) → Build Text
  | 0, _ => throw .tooDeep
  | n + 1, id => do
    match ← node id with
    | .scalar _ t => pure t
    | .sequence _ _ => throw .yaml
    | .mapping _ ps => do
      let s ← get
      match ps.find? fun p => (s.graph.node p.1).kind = .value with
      | some p => scalarText n p.2
      | none => throw .yaml

def scalar (limits : Limits) (id : Nat) (f : Text → Except Fault Value) : Build Unit := do
  let t ← scalarText (limits.following + 1) id
  let v ← f t
  put id (.scalar v)

def start (limits : Limits) (id : Nat) : Build Unit := do
  if (← built? id).isSome then pure ()
  else
    let open_ := fun (b : Built) => do
      put id b
      wait id
    match (← node id).kind with
    | .null => scalar limits id fun _ => .ok .none
    | .bool => scalar limits id boolOf
    | .int => scalar limits id intOf
    | .float => scalar limits id floatOf
    | .binary => scalar limits id binaryOf
    | .timestamp => scalar limits id timestampOf
    | .str => scalar limits id fun t => .ok (.text t)
    | .seq => open_ (.list [])
    | .omap | .pairs => open_ (.tuples [])
    | .map => open_ (.dict [])
    | .set => open_ (.set [])
    | .merge | .value | .unknown => throw .yaml

def pairsOf (id : Nat) : Build (List (Nat × Nat)) := do
  match ← node id with
  | .mapping _ ps => pure ps
  | _ => throw .yaml

def setPairs (id : Nat) (ps : List (Nat × Nat)) : Build Unit := do
  setNode id (.mapping (← node id).kind ps)

mutual

/-- Replaces the merge keys of a mapping by the pairs of what they name. The steps are bounded by
`n`, and the mappings that are merged into each other by `depth`. -/
def flatten : (n depth : Nat) → (id : Nat) → Build Unit
  | 0, _, _ => throw .tooDeep
  | _ + 1, 0, _ => throw .tooDeep
  | n + 1, depth + 1, id => do
    let merged ← flattenFrom n depth id 0 []
    if merged.isEmpty then pure ()
    else setPairs id (merged ++ (← pairsOf id))

def flattenFrom : (n depth : Nat) → (id place : Nat) → List (Nat × Nat) → Build (List (Nat × Nat))
  | 0, _, _, _, _ => throw .tooDeep
  | n + 1, depth, id, place, merged => do
    let ps ← pairsOf id
    match ps[place]? with
    | none => pure merged
    | some (k, v) => do
      let key ← node k
      if key.kind = .merge then
        setPairs id (ps.eraseIdx place)
        match ← node v with
        | .mapping _ _ => do
          flatten n depth v
          flattenFrom n depth id place (merged ++ (← pairsOf v))
        | .sequence _ items => do
          let lists ← flattenAll n depth items
          flattenFrom n depth id place (merged ++ lists.reverse.flatten)
        | .scalar _ _ => throw .yaml
      else
        if key.kind = .value then setNode k (key.withKind .str)
        flattenFrom n depth id (place + 1) merged

def flattenAll : (n depth : Nat) → List Nat → Build (List (List (Nat × Nat)))
  | 0, _, _ => throw .tooDeep
  | _ + 1, _, [] => pure []
  | n + 1, depth, id :: ids => do
    let _ ← pairsOf id
    flatten n depth id
    let ps ← pairsOf id
    let more ← flattenAll n depth ids
    pure (ps :: more)

end

/-- How many steps a mapping may take beyond its own pairs: more than there is time for. -/
abbrev mergeSteps : Nat := 1000000000000

def insert (key : Value) (id : Nat) : List (Value × Nat) → List (Value × Nat)
  | [] => [(key, id)]
  | (k, v) :: kvs => if Value.sameKey k key then (k, id) :: kvs else (k, v) :: insert key id kvs

def entriesFrom (limits : Limits) : List (Nat × Nat) → List (Value × Nat) → Build (List (Value × Nat))
  | [], kvs => pure kvs
  | (k, v) :: ps, kvs => do
    start limits k
    match ← built? k with
    | some (.scalar key) => do
      start limits v
      entriesFrom limits ps (insert key v kvs)
    | _ => throw .yaml

def entries (limits : Limits) (id : Nat) : Build (List (Value × Nat)) := do
  let ps ← pairsOf id
  flatten (ps.length + mergeSteps) (limits.merging + 1) id
  entriesFrom limits (← pairsOf id) []

def startAll (limits : Limits) : List Nat → Build Unit
  | [] => pure ()
  | id :: ids => do
    start limits id
    startAll limits ids

def tuplesFrom (limits : Limits) : List Nat → Build (List (Nat × Nat))
  | [] => pure []
  | id :: ids => do
    match ← pairsOf id with
    | [(k, v)] => do
      start limits k
      start limits v
      let more ← tuplesFrom limits ids
      pure ((k, v) :: more)
    | _ => throw .yaml

def itemsOf (id : Nat) : Build (List Nat) := do
  match ← node id with
  | .sequence _ xs => pure xs
  | _ => throw .yaml

def finish (limits : Limits) (id : Nat) : Build Unit := do
  match ← built? id with
  | some (.list _) => do
    let xs ← itemsOf id
    startAll limits xs
    put id (.list xs)
  | some (.tuples _) => do
    let ts ← tuplesFrom limits (← itemsOf id)
    put id (.tuples ts)
  | some (.dict _) => do
    let kvs ← entries limits id
    put id (.dict kvs)
  | some (.set _) => do
    let kvs ← entries limits id
    put id (.set (kvs.map Prod.fst))
  | _ => pure ()

def finishAll (limits : Limits) : (n : Nat) → Build Unit
  | 0 => pure ()
  | n + 1 => do
    let s ← get
    match s.waiting with
    | [] => pure ()
    | id :: ids => do
      set { s with waiting := ids }
      finish limits id
      finishAll limits n

end Build

/-- The value of a node; inside the collections `around` it, one of them comes round again. -/
def valueOf (built : List (Nat × Built)) : (n : Nat) → (around : List Nat) → (id : Nat) → Value
  | 0, _, _ => .none
  | n + 1, around, id =>
    let again := around.contains id
    let go := valueOf built n (id :: around)
    match (built.find? fun b => b.1 == id).map Prod.snd with
    | none => .none
    | some (.scalar v) => v
    | some (.list xs) => if again then .again .list else .list (xs.map go)
    | some (.tuples ts) =>
      if again then .again .list else .list (ts.map fun t => .tuple [go t.1, go t.2])
    | some (.dict kvs) => if again then .again .dict else .dict (kvs.map fun e => (e.1, go e.2))
    | some (.set ks) => .set ks

inductive Document
  | nothing
  | entries (kvs : List (Value × Value))
  | other

def read (limits : Limits) (s : TextStream) : Except Fault Document := do
  let (root, graph) ← compose limits s
  match root with
  | none => pure .nothing
  | some root => do
    let n := graph.nodes.size + 1
    let work : Build Unit := do
      Build.start limits root
      Build.finishAll limits n
    let (_, s) ← work.run ⟨graph, [], []⟩
    match (s.built.find? fun b => b.1 == root).map Prod.snd with
    | some (.scalar .none) => pure .nothing
    | some (.dict kvs) => pure (.entries (kvs.map fun e => (e.1, valueOf s.built n [] e.2)))
    | _ => pure .other

end HostTelemetry.Yaml
