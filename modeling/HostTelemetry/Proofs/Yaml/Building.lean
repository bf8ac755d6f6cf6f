import HostTelemetry.Proofs.Yaml.Composing
import HostTelemetry.Proofs.Yaml.Scalar
import HostTelemetry.Proofs.Text.Utf8
import HostTelemetry.Yaml.Loader

/-!
# Faults of the builder

Building changes the graph of a document: merged pairs are put into mappings, and a key that is the
sign for the value of a mapping becomes a text. What a node is otherwise stays. So the builder stops
at what no document means, at a scalar that is refused for the kind of its node, or at too many
merges or values of mappings inside each other.
-/

set_option autoImplicit false

namespace HostTelemetry.Yaml

namespace Node

/-- What building leaves of a node: its shape, its text, and its kind unless it is the sign for a
value. -/
def Becomes (m n : Node) : Prop :=
  (n.kind = m.kind ∨ m.kind = .value ∧ n.kind = .str) ∧
    match m, n with
    | .scalar _ s, .scalar _ t => s = t
    | .sequence _ _, .sequence _ _ => True
    | .mapping _ _, .mapping _ _ => True
    | _, _ => False

theorem Becomes.rfl {n : Node} : n.Becomes n := by
  refine ⟨Or.inl (Eq.refl _), ?_⟩
  cases n <;> trivial

theorem Becomes.kind_eq {m n : Node} (h : m.Becomes n) (hn : n.kind ≠ .str) : n.kind = m.kind := by
  obtain h | ⟨-, h⟩ := h.1
  · exact h
  · exact absurd h hn

def IsMapping (n : Node) : Prop := ∃ k ps, n = .mapping k ps

theorem Becomes.scalar {m : Node} {k : NodeKind} {t : Text} (h : m.Becomes (.scalar k t)) :
    ∃ k', m = .scalar k' t := by
  obtain ⟨-, h⟩ := h
  cases m with
  | scalar k' s =>
    obtain rfl : s = t := h
    exact ⟨k', Eq.refl _⟩
  | _ => exact h.elim

theorem Becomes.mapping {m : Node} {k : NodeKind} {ps : List (Nat × Nat)}
    (h : m.Becomes (.mapping k ps)) : m.IsMapping := by
  obtain ⟨-, h⟩ := h
  cases m with
  | mapping k' qs => exact ⟨k', qs, Eq.refl _⟩
  | _ => exact h.elim

theorem Becomes.withPairs {m n : Node} (h : m.Becomes n) (hm : m.IsMapping)
    (ps : List (Nat × Nat)) : m.Becomes (.mapping n.kind ps) := by
  obtain ⟨k, qs, rfl⟩ := hm
  exact ⟨h.1, trivial⟩

theorem Becomes.withText {m n : Node} (h : m.Becomes n) (hn : n.kind = .value) :
    m.Becomes (n.withKind .str) := by
  have hm : m.kind = .value := by
    rw [← h.kind_eq (by rw [hn]; decide), hn]
  refine ⟨Or.inr ⟨hm, by cases n <;> exact Eq.refl _⟩, ?_⟩
  cases m <;> cases n <;> exact h.2

end Node

namespace Graph

def Becomes (g h : Graph) : Prop := ∀ i, (g.node i).Becomes (h.node i)

theorem Becomes.rfl {g : Graph} : g.Becomes g := fun _ => .rfl

theorem node_set (g : Graph) (i j : Nat) (n : Node) :
    i = j ∧ (g.set i n).node j = n ∨ (g.set i n).node j = g.node j := by
  simp only [set, node, Array.getD_eq_getD_getElem?, Array.getElem?_setIfInBounds]
  split
  · rename_i hij
    split
    · exact Or.inl ⟨hij, Eq.refl _⟩
    · rename_i hsize
      subst hij
      rw [Array.getElem?_eq_none (Nat.not_lt.1 hsize)]
      exact Or.inr (Eq.refl _)
  · exact Or.inr (Eq.refl _)

theorem Becomes.set {g h : Graph} {i : Nat} {n : Node} (hg : g.Becomes h)
    (hn : (g.node i).Becomes n) : g.Becomes (h.set i n) := by
  intro j
  obtain ⟨rfl, hj⟩ | hj := h.node_set i j n
  · rw [hj]
    exact hn
  · rw [hj]
    exact hg j

end Graph

/-- Faults of a graph: a scalar that is refused for the kind of a node, its own or that of a mapping
of which it is the value; or merge keys or values of mappings, which can go too deep. -/
inductive Unbuildable (g : Graph) : Fault → Prop
  | scalar {i j : Nat} {k : NodeKind} {text : Text} {read : Text → Except Fault Value} {f : Fault}
      (place : i = j ∨ (g.node i).IsMapping) (scalar : g.node j = .scalar k text)
      (reader : reader? (g.node i).kind = some read) (refused : read text = .error f)
      (way : Refusal (g.node i).kind f) : Unbuildable g f
  | merging {i : Nat} (key : (g.node i).kind = .merge ∨ (g.node i).kind = .value) :
      Unbuildable g .tooDeep

def Stops (g : Graph) (f : Fault) : Prop := f = .yaml ∨ Unbuildable g f

namespace Build

/-- What comes of a state: a graph that has become of `g`, or a fault of some sort. -/
def Kept {α : Type} (g : Graph) (P : Fault → Prop) : Except Fault (α × Builder) → Prop
  | .ok (_, s) => g.Becomes s.graph
  | .error f => P f

def Keeps {α : Type} (g : Graph) (P : Fault → Prop) (m : Build α) : Prop :=
  ∀ s, g.Becomes s.graph → Kept g P (m.run s)

section

variable {α β : Type} {g : Graph} {P Q : Fault → Prop} {s : Builder} {m : Build α} {f : α → Build β}

theorem Kept.bind (h : Kept g P (m.run s)) (hf : ∀ a, Keeps g P (f a)) :
    Kept g P ((m >>= f).run s) := by
  rw [StateT.run_bind]
  rcases hm : m.run s with e | ⟨a, s'⟩
  · rw [hm] at h
    exact h
  · rw [hm] at h
    exact hf a s' h

theorem Keeps.bind (h : Keeps g P m) (hf : ∀ a, Keeps g P (f a)) : Keeps g P (m >>= f) :=
  fun s hs => (h s hs).bind hf

theorem Keeps.mono (h : Keeps g P m) (hP : ∀ f, P f → Q f) : Keeps g Q m := by
  intro s hs
  have hm := h s hs
  rcases hrun : m.run s with e | ⟨a, s'⟩
  · rw [hrun] at hm
    exact hP e hm
  · rw [hrun] at hm
    exact hm

theorem Keeps.pure (a : α) : Keeps g P (pure a : Build α) := fun _ hs => hs

theorem Keeps.throw {e : Fault} (h : P e) : Keeps g P (throw e : Build α) := fun _ _ => h

theorem Keeps.ite {p : Prop} [Decidable p] {x y : Build α} (hx : Keeps g P x)
    (hy : Keeps g P y) : Keeps g P (if p then x else y) := by
  split
  · exact hx
  · exact hy

theorem put_keeps (id : Nat) (b : Built) : Keeps g P (put id b) := fun _ hs => hs

theorem wait_keeps (id : Nat) : Keeps g P (wait id) := fun _ hs => hs

theorem built?_keeps (id : Nat) : Keeps g P (built? id) := fun _ hs => hs

theorem get_bind {f : Builder → Build β} (h : Kept g P ((f s).run s)) :
    Kept g P ((get >>= f).run s) := h

theorem built?_bind {id : Nat} {f : Option Built → Build β}
    (h : ∀ b, Kept g P ((f b).run s)) : Kept g P ((built? id >>= f).run s) := h _

theorem Keeps.lift {x : Except Fault α} (h : FailsOnly P x) {f : α → Build β}
    (hf : ∀ a, Keeps g P (f a)) : Keeps g P ((liftM x : Build α) >>= f) := by
  intro s hs
  rcases x with e | a
  · exact h e rfl
  · exact hf a s hs

theorem node_bind {id : Nat} {f : Node → Build β}
    (h : Kept g P ((f (s.graph.node id)).run s)) : Kept g P ((node id >>= f).run s) := h

theorem pairsOf_mapping {id : Nat} {k : NodeKind} {ps : List (Nat × Nat)}
    (h : s.graph.node id = .mapping k ps) : (pairsOf id).run s = .ok (ps, s) := by
  have hnode : (node id).run s = .ok (s.graph.node id, s) := rfl
  rw [pairsOf, StateT.run_bind, hnode, h]
  rfl

theorem pairsOf_bind (hP : P .yaml) {id : Nat} {f : List (Nat × Nat) → Build β}
    (h : ∀ k ps, s.graph.node id = .mapping k ps → Kept g P ((f ps).run s)) :
    Kept g P ((pairsOf id >>= f).run s) := by
  rcases hid : s.graph.node id with ⟨k, t⟩ | ⟨k, xs⟩ | ⟨k, ps⟩
  · rw [pairsOf, bind_assoc]
    apply node_bind
    rw [hid]
    exact hP
  · rw [pairsOf, bind_assoc]
    apply node_bind
    rw [hid]
    exact hP
  · rw [StateT.run_bind, pairsOf_mapping hid]
    exact h k ps hid

theorem pairsOf_keeps (hP : P .yaml) {id : Nat} {f : List (Nat × Nat) → Build β}
    (h : ∀ ps, (g.node id).IsMapping → Keeps g P (f ps)) : Keeps g P (pairsOf id >>= f) := by
  intro s hs
  apply pairsOf_bind hP
  intro k ps hid
  exact h ps (hid ▸ hs id).mapping s hs

theorem setPairs_keeps {id : Nat} (h : (g.node id).IsMapping) (ps : List (Nat × Nat)) :
    Keeps g P (setPairs id ps) := by
  intro s hs
  exact hs.set ((hs id).withPairs h ps)

end

section

variable (g : Graph)

def Merging (f : Fault) : Prop := f = .yaml ∨ f = .tooDeep

structure Merges (n : Nat) : Prop where
  flatten : ∀ depth id, Keeps g Merging (flatten n depth id)
  flattenFrom : ∀ depth id place merged, Keeps g Merging (flattenFrom n depth id place merged)
  flattenAll : ∀ depth ids, Keeps g Merging (flattenAll n depth ids)

theorem merges (n : Nat) : Merges g n := by
  induction n with
  | zero => exact {
      flatten := fun depth id => by rw [flatten]; exact .throw (Or.inr rfl)
      flattenFrom := fun depth id place merged => by rw [flattenFrom]; exact .throw (Or.inr rfl)
      flattenAll := fun depth ids => by rw [flattenAll]; exact .throw (Or.inr rfl) }
  | succ n ih => exact {
      flatten := by
        intro depth id
        cases depth with
        | zero =>
          rw [flatten]
          exact .throw (Or.inr rfl)
        | succ depth =>
          rw [flatten]
          apply (ih.flattenFrom depth id 0 []).bind
          intro merged
          refine .ite (.pure ()) (pairsOf_keeps (Or.inl rfl) fun ps hid => setPairs_keeps hid _)
      flattenFrom := by
        intro depth id place merged
        rw [flattenFrom]
        apply pairsOf_keeps (Or.inl rfl)
        intro ps hid
        split
        · exact .pure merged
        · rename_i k v hkv
          intro s hs
          apply node_bind
          split
          · refine (setPairs_keeps hid _).bind (fun _ => ?_) s hs
            intro s hs
            apply node_bind
            split
            -- what is merged is flattened first: one mapping, or those of a sequence
            · refine (ih.flatten depth v).bind (fun _ => ?_) s hs
              exact pairsOf_keeps (Or.inl rfl) fun qs _ => ih.flattenFrom depth id place _
            · exact (ih.flattenAll depth _).bind
                (fun lists => ih.flattenFrom depth id place _) s hs
            · exact Or.inl rfl
          · have hrest := ih.flattenFrom depth id (place + 1) merged
            dsimp only
            split
            · rename_i hvalue
              exact hrest _ (hs.set ((hs k).withText hvalue))
            · exact hrest s hs
      flattenAll := by
        intro depth ids
        cases ids with
        | nil =>
          rw [flattenAll]
          exact .pure []
        | cons id ids =>
          rw [flattenAll]
          apply pairsOf_keeps (Or.inl rfl)
          intro _ _
          apply (ih.flatten depth id).bind
          intro _
          apply pairsOf_keeps (Or.inl rfl)
          intro ps _
          exact (ih.flattenAll depth ids).bind fun more => .pure _ }

end

section

variable {g : Graph} {limits : Limits} {s : Builder} {id : Nat} {k : NodeKind}
  {ps : List (Nat × Nat)}

def afterKey (s : Builder) (key : Nat) : Builder :=
  if (s.graph.node key).kind = .value then
    { s with graph := s.graph.set key ((s.graph.node key).withKind .str) }
  else s

theorem afterKey_becomes (hs : g.Becomes s.graph) (key : Nat) :
    g.Becomes (afterKey s key).graph := by
  unfold afterKey
  split
  · rename_i hvalue
    exact hs.set ((hs key).withText hvalue)
  · exact hs

theorem afterKey_mapping (hid : s.graph.node id = .mapping k ps) (key : Nat) :
    ∃ k', (afterKey s key).graph.node id = .mapping k' ps := by
  unfold afterKey
  split
  · obtain ⟨rfl, hset⟩ | hset := s.graph.node_set key id ((s.graph.node key).withKind .str)
    · refine ⟨.str, ?_⟩
      show (s.graph.set _ _).node _ = _
      rw [hset, hid]
      rfl
    · exact ⟨k, hset.trans hid⟩
  · exact ⟨k, hid⟩

theorem flattenFrom_end (n depth : Nat) {place : Nat} (merged : List (Nat × Nat))
    (hid : s.graph.node id = .mapping k ps) (hplace : ps[place]? = none) :
    (flattenFrom (n + 1) depth id place merged).run s = .ok (merged, s) := by
  rw [flattenFrom, StateT.run_bind, pairsOf_mapping hid]
  dsimp only [bind, Except.bind]
  rw [hplace]
  rfl

theorem flattenFrom_key (n depth : Nat) {place key v : Nat} (merged : List (Nat × Nat))
    (hid : s.graph.node id = .mapping k ps) (hplace : ps[place]? = some (key, v))
    (hkey : (s.graph.node key).kind ≠ .merge) :
    (flattenFrom (n + 1) depth id place merged).run s =
      (flattenFrom n depth id (place + 1) merged).run (afterKey s key) := by
  rw [flattenFrom, StateT.run_bind, pairsOf_mapping hid]
  dsimp only [bind, Except.bind]
  rw [hplace]
  show StateT.run (ite ((s.graph.node key).kind = NodeKind.merge) _ _) s = _
  rw [if_neg hkey, afterKey]
  split
  · rfl
  · rfl

theorem flattenFrom_plain (hplain : ∀ i, (g.node i).kind ≠ .merge) (n depth place : Nat)
    (merged : List (Nat × Nat)) (hs : g.Becomes s.graph) (hid : s.graph.node id = .mapping k ps)
    (hpos : 0 < n) (hn : ps.length < n + place) :
    ∃ s', (flattenFrom n depth id place merged).run s = .ok (merged, s') ∧
      g.Becomes s'.graph := by
  induction n generalizing place s k with
  | zero => omega
  | succ n ih =>
    rcases hplace : ps[place]? with _ | ⟨key, v⟩
    · exact ⟨s, flattenFrom_end n depth merged hid hplace, hs⟩
    · have hlt : place < ps.length := (List.getElem?_eq_some_iff.1 hplace).1
      have hkey : (s.graph.node key).kind ≠ .merge := by
        intro hmerge
        apply hplain key
        rw [← (hs key).kind_eq (by rw [hmerge]; decide), hmerge]
      obtain ⟨k', hid'⟩ := afterKey_mapping hid key
      rw [flattenFrom_key n depth merged hid hplace hkey]
      exact ih (place + 1) (afterKey_becomes hs key) hid' (by omega) (by omega)

/-- A mapping is flattened, unless merge keys of the graph go too deep. -/
theorem flatten_kept {n depth : Nat} (hs : g.Becomes s.graph) (hid : s.graph.node id = .mapping k ps)
    (hn : ps.length + 1 < n) (hdepth : 0 < depth) :
    Kept g (Stops g) ((flatten n depth id).run s) := by
  by_cases hplain : ∀ i, (g.node i).kind ≠ .merge
  · obtain ⟨n, rfl⟩ : ∃ m, n = m + 1 := ⟨n - 1, by omega⟩
    obtain ⟨depth, rfl⟩ : ∃ m, depth = m + 1 := ⟨depth - 1, by omega⟩
    obtain ⟨s', hrun, hs'⟩ := flattenFrom_plain hplain n depth 0 [] hs hid (by omega) (by omega)
    rw [flatten, StateT.run_bind, hrun]
    exact hs'
  · obtain ⟨i, hi⟩ := Classical.not_forall.1 hplain
    have hmerge := Classical.not_not.1 hi
    refine ((merges g n).flatten depth id).mono (fun f hf => ?_) s hs
    obtain rfl | rfl := hf
    · exact Or.inl rfl
    · exact Or.inr (.merging (Or.inl hmerge))

def signed? (s : Builder) (ps : List (Nat × Nat)) : Option (Nat × Nat) :=
  ps.find? fun p => (s.graph.node p.1).kind = .value

theorem scalarText_mapping (n : Nat) (hid : s.graph.node id = .mapping k ps) :
    (scalarText (n + 1) id).run s =
      (signed? s ps).elim (.error .yaml) fun p => (scalarText n p.2).run s := by
  have hnode : (node id).run s = .ok (s.graph.node id, s) := rfl
  have hget : ∀ f : Builder → Build Text, (StateT.bind get f).run s = (f s).run s := fun _ => rfl
  rw [scalarText, StateT.run_bind, hnode, hid]
  dsimp only [bind, Except.bind]
  rw [hget, signed?]
  cases ps.find? fun p => (s.graph.node p.1).kind = .value <;> rfl

theorem scalarText_run (n : Nat) (id : Nat) (hs : g.Becomes s.graph) :
    (∃ t j k', (scalarText n id).run s = .ok (t, s) ∧ g.node j = .scalar k' t ∧
      (id = j ∨ (g.node id).IsMapping)) ∨
    (scalarText n id).run s = .error .yaml ∨
    (scalarText n id).run s = .error .tooDeep ∧ (n = 0 ∨ ∃ i, (g.node i).kind = .value) := by
  induction n generalizing id with
  | zero => exact Or.inr (Or.inr ⟨rfl, Or.inl rfl⟩)
  | succ n ih =>
    have hnode : (node id).run s = .ok (s.graph.node id, s) := rfl
    rcases hid : s.graph.node id with ⟨k, t⟩ | ⟨k, xs⟩ | ⟨k, ps⟩
    · obtain ⟨k', hk'⟩ := (hid ▸ hs id : (g.node id).Becomes (.scalar k t)).scalar
      rw [scalarText, StateT.run_bind, hnode, hid]
      exact Or.inl ⟨t, id, k', rfl, hk', Or.inl rfl⟩
    · rw [scalarText, StateT.run_bind, hnode, hid]
      exact Or.inr (Or.inl rfl)
    · rw [scalarText_mapping n hid]
      rcases hfind : signed? s ps with _ | p
      · exact Or.inr (Or.inl rfl)
      · have hvalue : (s.graph.node p.1).kind = .value := by
          simpa using List.find?_some hfind
        have hown : (g.node p.1).kind = .value := by
          rw [← (hs p.1).kind_eq (by rw [hvalue]; decide), hvalue]
        obtain ⟨t, j, k', hrun, hj, -⟩ | hrun | ⟨hrun, -⟩ := ih p.2
        · exact Or.inl ⟨t, j, k', hrun, hj, Or.inr (hid ▸ hs id).mapping⟩
        · exact Or.inr (Or.inl hrun)
        · exact Or.inr (Or.inr ⟨hrun, Or.inr ⟨p.1, hown⟩⟩)

/-- A refused text was refused for the kind that the node has had from the beginning: no text is
refused as a text. -/
theorem scalar_kept {read : Text → Except Fault Value} (hs : g.Becomes s.graph)
    (hread : reader? (s.graph.node id).kind = some read) :
    Kept g (Stops g) ((scalar limits id read).run s) := by
  rw [scalar, StateT.run_bind]
  obtain ⟨t, j, k', hrun, hj, hplace⟩ | hrun | ⟨hrun, hdeep⟩ :=
    scalarText_run (limits.following + 1) id hs
  · rw [hrun]
    refine Keeps.lift (fun f hf => ?_) (fun v => put_keeps id (.scalar v)) s hs
    obtain rfl | hway := reader?_fails hread t f hf
    · exact Or.inl rfl
    · have hkind : (s.graph.node id).kind = (g.node id).kind := by
        apply (hs id).kind_eq
        intro hstr
        rw [hstr] at hway
        cases hway
      rw [hkind] at hread hway
      exact Or.inr (.scalar hplace hj hread hf hway)
  · rw [hrun]
    exact Or.inl rfl
  · rw [hrun]
    obtain hzero | ⟨i, hi⟩ := hdeep
    · cases hzero
    · exact Or.inr (.merging (Or.inr hi))

theorem start_kept (hs : g.Becomes s.graph) : Kept g (Stops g) ((start limits id).run s) := by
  have hopen : ∀ b, Kept g (Stops g) ((do put id b; wait id : Build Unit).run s) := fun b =>
    (put_keeps id b).bind (fun _ => wait_keeps id) s hs
  have hscalar : ∀ read, reader? (s.graph.node id).kind = some read →
      Kept g (Stops g) ((scalar limits id read).run s) := fun _ => scalar_kept hs
  rw [start]
  apply built?_bind
  intro b
  split
  · exact hs
  · apply node_bind
    cases hkind : (s.graph.node id).kind with
    | null | bool | int | float | binary | timestamp | str => exact hscalar _ (hkind ▸ rfl)
    | seq | omap | pairs | map | set => exact hopen _
    | merge | value | unknown => exact Or.inl rfl

end

section

variable (g : Graph) (limits : Limits)

theorem start_keeps (id : Nat) : Keeps g (Stops g) (start limits id) := fun _ => start_kept

theorem entriesFrom_keeps (ps : List (Nat × Nat)) (kvs : List (Value × Nat)) :
    Keeps g (Stops g) (entriesFrom limits ps kvs) := by
  induction ps generalizing kvs with
  | nil =>
    rw [entriesFrom]
    exact .pure kvs
  | cons p ps ih =>
    obtain ⟨k, v⟩ := p
    rw [entriesFrom]
    refine (start_keeps g limits k).bind fun _ => (built?_keeps k).bind fun b => ?_
    split
    · exact (start_keeps g limits v).bind fun _ => ih _
    · exact .throw (Or.inl rfl)

theorem entries_keeps (id : Nat) : Keeps g (Stops g) (entries limits id) := by
  intro s hs
  rw [entries]
  apply pairsOf_bind (Or.inl rfl)
  intro k ps hid
  apply (flatten_kept hs hid (Nat.add_lt_add_left (by decide) _) (Nat.succ_pos _)).bind
  intro _
  exact pairsOf_keeps (Or.inl rfl) fun ps _ => entriesFrom_keeps g limits ps []

theorem startAll_keeps (ids : List Nat) : Keeps g (Stops g) (startAll limits ids) := by
  induction ids with
  | nil =>
    rw [startAll]
    exact .pure ()
  | cons id ids ih =>
    rw [startAll]
    exact (start_keeps g limits id).bind fun _ => ih

theorem tuplesFrom_keeps (ids : List Nat) : Keeps g (Stops g) (tuplesFrom limits ids) := by
  induction ids with
  | nil =>
    rw [tuplesFrom]
    exact .pure []
  | cons id ids ih =>
    rw [tuplesFrom]
    refine pairsOf_keeps (Or.inl rfl) fun ps _ => ?_
    split
    · exact (start_keeps g limits _).bind fun _ => (start_keeps g limits _).bind fun _ =>
        ih.bind fun more => .pure _
    · exact .throw (Or.inl rfl)

theorem itemsOf_keeps (id : Nat) : Keeps g (Stops g) (itemsOf id) := by
  intro s hs
  rw [itemsOf]
  apply node_bind
  split
  · exact hs
  · exact Or.inl rfl

theorem finish_keeps (id : Nat) : Keeps g (Stops g) (finish limits id) := by
  rw [finish]
  apply (built?_keeps id).bind
  intro b
  split
  · exact (itemsOf_keeps g id).bind fun xs => (startAll_keeps g limits xs).bind fun _ =>
      put_keeps id _
  · exact (itemsOf_keeps g id).bind fun xs => (tuplesFrom_keeps g limits xs).bind fun ts =>
      put_keeps id _
  · exact (entries_keeps g limits id).bind fun kvs => put_keeps id _
  · exact (entries_keeps g limits id).bind fun kvs => put_keeps id _
  · exact .pure ()

theorem finishAll_keeps (n : Nat) : Keeps g (Stops g) (finishAll limits n) := by
  induction n with
  | zero =>
    rw [finishAll]
    exact .pure ()
  | succ n ih =>
    intro s hs
    rw [finishAll]
    apply get_bind
    split
    · exact hs
    · exact (finish_keeps g limits _).bind (fun _ => ih) _ hs

end

end Build

/-- What a stream has too much of to be read, or what it or a scalar in it is refused for: bytes that
are no text, a number that is too large, too many collections in each other, or a node that cannot
be built. -/
inductive Excess (limits : Limits) (s : TextStream) : Fault → Prop
  | bytes {u : Utf8.Unreadable} (fault : s.fault = some u) : Excess limits s (.unreadable u)
  | number {f : Fault} (large : TooLarge s.text f) : Excess limits s f
  | depth (deep : Deep limits.nesting (streamTokens s).1) : Excess limits s .tooDeep
  | node {root : Nat} {g : Graph} {f : Fault} (composed : compose limits s = .ok (some root, g))
      (stops : Unbuildable g f) : Excess limits s f

section

variable {limits : Limits} {s : TextStream} {f : Fault}

theorem Excess.kind_ne (h : Excess limits s f) : f.kind ≠ .settings ∧ f.kind ≠ .yaml := by
  cases h with
  | bytes fault => exact ⟨nofun, nofun⟩
  | number large =>
    cases large with
    | escape run digits eight refused =>
      obtain ⟨-, rfl | rfl⟩ := charOf_error refused <;> decide
    | version run all many => exact ⟨nofun, nofun⟩
  | depth deep => decide
  | node composed stops =>
    cases stops with
    | scalar place scalar reader refused way => exact way.kind_ne
    | merging key => decide

/-- A stream that cannot be read is no document, or exceeds. -/
theorem read_error (h : read limits s = .error f) : f = .yaml ∨ Excess limits s f := by
  unfold read at h
  rcases hcompose : compose limits s with e | ⟨_ | root, g⟩
  · rw [hcompose] at h
    obtain rfl : e = f := Except.error.inj h
    obtain rfl | ⟨u, hu, rfl⟩ | hlarge | ⟨rfl, hdeep⟩ := compose_error hcompose
    · exact Or.inl rfl
    · exact Or.inr (.bytes hu)
    · exact Or.inr (.number hlarge)
    · exact Or.inr (.depth hdeep)
  · rw [hcompose] at h
    cases h
  · rw [hcompose] at h
    have hkeeps := ((Build.start_keeps g limits root).bind fun _ =>
      Build.finishAll_keeps g limits (g.nodes.size + 1)) ⟨g, [], []⟩ .rfl
    dsimp only [bind, Except.bind] at h hkeeps
    split at h
    · rename_i e hrun
      rw [hrun] at hkeeps
      cases h
      exact hkeeps.imp_right (.node hcompose)
    · split at h <;> cases h

end

theorem reader_lawful (limits : Limits) : (reader limits).Lawful where
  pieces_flatten bs := Utf8.pieces_flatten (by decide) (Nat.lt_succ_self _)
  load_unread t u ht := by
    have hshort : t.length < 2 * partSize := Nat.lt_of_lt_of_le ht (by decide)
    have hadmitted : admitted (some u) (t.length + 1) (2 * partSize) t =
        ([], some (.unreadable u)) := if_pos ⟨rfl, hshort⟩
    have htokens : streamTokens ⟨t, some u⟩ = ([], some (.unreadable u)) := by
      rw [streamTokens, hadmitted]
      rfl
    have hcompose : compose limits ⟨t, some u⟩ = .error (.unreadable u) := by
      rw [compose, htokens]
      rfl
    show read limits ⟨t, some u⟩ = _
    rw [read, hcompose]
    rfl
  load_whole s d h := by
    obtain ⟨p, hcompose, -⟩ := bind_eq_ok h
    exact compose_whole hcompose
  load_kind s f h := by
    obtain rfl | hexcess := read_error h
    · decide
    · exact hexcess.kind_ne.1

end HostTelemetry.Yaml
