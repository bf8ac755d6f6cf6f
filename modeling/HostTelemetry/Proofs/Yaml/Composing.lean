import HostTelemetry.Proofs.Yaml.Lexing
import HostTelemetry.Yaml.Node

/-!
# Faults of the composer

A collection takes as many tokens that begin one as tokens that end one. The composer stops at tokens
that are none of a document, at the end of the tokens with the fault that ended them, or at a place
where too many collections are open.
-/

set_option autoImplicit false

namespace HostTelemetry.Yaml

def Token.opening : Token → Int
  | .flowSequence | .flowMapping | .blockSequence | .blockMapping => 1
  | .flowSequenceEnd | .flowMappingEnd | .blockEnd => -1
  | _ => 0

def opened (ts : List Token) : Int := (ts.map Token.opening).sum

theorem opened_append (ts us : List Token) : opened (ts ++ us) = opened ts + opened us := by
  rw [opened, List.map_append, List.sum_append, opened, opened]

/-- At some place so many collections are open, where one without tokens of its own may stand in
each of them. -/
def Deep (k : Int) (ts : List Token) : Prop := ∃ front, front <+: ts ∧ k < 2 * opened front

theorem Deep.of_neg {k : Int} (h : k < 0) (ts : List Token) : Deep k ts :=
  ⟨[], List.nil_prefix, h⟩

theorem Deep.append {k l : Int} {used ts : List Token} (h : Deep k ts)
    (hl : l ≤ k + 2 * opened used) : Deep l (used ++ ts) := by
  obtain ⟨front, hfront, hk⟩ := h
  refine ⟨used ++ front, (List.prefix_append_right_inj used).2 hfront, ?_⟩
  rw [opened_append]
  omega

theorem Deep.mono {k l : Int} {ts : List Token} (h : Deep k ts) (hl : l ≤ k) : Deep l ts := by
  obtain ⟨front, hfront, hk⟩ := h
  exact ⟨front, hfront, by omega⟩

namespace Compose

/-- What comes of a state: tokens are taken that change the number of open collections by `b`, or it
fails, and as too deep only if the tokens are, by the measure `k`. -/
def Composed {α : Type} (s : Composer) (b k : Int) : Except Fault (α × Composer) → Prop
  | .ok (_, s') => s'.fault = s.fault ∧ ∃ used, s.tokens = used ++ s'.tokens ∧ opened used = b
  | .error f => f = .yaml ∨ s.fault = some f ∨ f = .tooDeep ∧ Deep k s.tokens

def Composes {α : Type} (b k : Int) (m : Compose α) : Prop := ∀ s, Composed s b k (m.run s)

section

variable {α β : Type} {s : Composer} {b b' c k k' l : Int} {m : Compose α} {f : α → Compose β}

theorem Composed.mono {x : Except Fault (α × Composer)} (h : Composed s b k x) (hl : l ≤ k) :
    Composed s b l x := by
  rcases x with g | ⟨a, s'⟩
  · exact h.imp_right (Or.imp_right (And.imp_right fun hd => hd.mono hl))
  · exact h

theorem Composes.mono (h : Composes b k m) (hl : l ≤ k) : Composes b l m :=
  fun s => (h s).mono hl

theorem Composed.bind (h : Composed s b k (m.run s)) (hf : ∀ a, Composes b' k' (f a))
    (hc : c = b + b') (hk : l ≤ k) (hk' : l ≤ k' + 2 * b) : Composed s c l ((m >>= f).run s) := by
  rw [StateT.run_bind]
  rcases hm : m.run s with g | ⟨a, s'⟩
  · rw [hm] at h
    exact h.mono hk
  · rw [hm] at h
    obtain ⟨hfault, used, hused, hb⟩ := h
    have ha := hf a s'
    show Composed s c l ((f a).run s')
    rcases hrun : (f a).run s' with g | ⟨y, s''⟩
    · rw [hrun] at ha
      unfold Composed
      rw [← hfault, hused]
      exact ha.imp_right (Or.imp_right (And.imp_right fun hd => hd.append (hb ▸ hk')))
    · rw [hrun] at ha
      obtain ⟨hfault', used', hused', hb'⟩ := ha
      refine ⟨hfault'.trans hfault, used ++ used', ?_, ?_⟩
      · rw [hused, hused', List.append_assoc]
      · rw [opened_append, hb, hb', hc]

theorem Composes.bind (h : Composes b k m) (hf : ∀ a, Composes b' k' (f a))
    (hc : c = b + b') (hk : l ≤ k) (hk' : l ≤ k' + 2 * b) : Composes c l (m >>= f) :=
  fun s => (h s).bind hf hc hk hk'

theorem Composes.pure (a : α) : Composes 0 k (pure a : Compose α) :=
  fun _ => ⟨rfl, [], rfl, rfl⟩

theorem Composed.thenStill (h : Composed s b k (m.run s)) (hf : ∀ l a, Composes 0 l (f a)) :
    Composed s b k ((m >>= f).run s) :=
  h.bind (hf (k - 2 * b)) (by omega) (Int.le_refl k) (by omega)

theorem Composes.thenStill (h : Composes b k m) (hf : ∀ l a, Composes 0 l (f a)) :
    Composes b k (m >>= f) :=
  fun s => (h s).thenStill hf

theorem Composes.map (h : Composes b k m) (g : α → β) :
    Composes b k (m >>= fun a => (Pure.pure (g a) : Compose β)) :=
  h.thenStill fun _ a => .pure (g a)

theorem Composes.fail : Composes b k (fail : Compose α) := fun _ => Or.inl rfl

theorem Composes.tooDeep (h : k < 0) : Composes b k (throw .tooDeep : Compose α) :=
  fun s => Or.inr (Or.inr ⟨rfl, Deep.of_neg h s.tokens⟩)

theorem Composes.ite {p : Prop} [Decidable p] {x y : Compose α} (hx : Composes b k x)
    (hy : Composes b k y) : Composes b k (if p then x else y) := by
  split
  · exact hx
  · exact hy

theorem peek_cons {t : Token} {ts : List Token} (h : s.tokens = t :: ts) :
    peek.run s = .ok (t, s) := by
  simp [peek, h]
  rfl

theorem peek_nil (h : s.tokens = []) : peek.run s = .error (s.fault.getD .yaml) := by
  simp [peek, h]
  rfl

theorem peek_bind {f : Token → Compose β}
    (h : ∀ t ts, s.tokens = t :: ts → Composed s b k ((f t).run s)) :
    Composed s b k ((peek >>= f).run s) := by
  rw [StateT.run_bind]
  rcases hs : s.tokens with _ | ⟨t, ts⟩
  · rw [peek_nil hs]
    rcases hfault : s.fault with _ | g
    · exact Or.inl rfl
    · exact Or.inr (Or.inl hfault)
  · rw [peek_cons hs]
    exact h t ts hs

theorem drop_bind {t : Token} {ts : List Token} {f : Unit → Compose β} (hs : s.tokens = t :: ts)
    (hf : Composes b' k' (f ())) (hc : c = t.opening + b') (hl : l ≤ k' + 2 * t.opening) :
    Composed s c l ((drop >>= f).run s) := by
  have hdrop : Composed s t.opening l (drop.run s) := by
    have hrun : drop.run s = .ok ((), { s with tokens := s.tokens.drop 1 }) := by
      rw [drop, StateT.run_bind, peek_cons hs]
      rfl
    rw [hrun]
    refine ⟨rfl, [t], by rw [hs]; rfl, ?_⟩
    simp [opened]
  exact hdrop.bind (fun _ => hf) hc (Int.le_refl l) hl

theorem drop_still {t : Token} {ts : List Token} {f : Unit → Compose β} (hs : s.tokens = t :: ts)
    (ht : t.opening = 0) (hf : Composes b k (f ())) : Composed s b k ((drop >>= f).run s) :=
  drop_bind hs hf (by omega) (by omega)

theorem drop_begin {t : Token} {ts : List Token} {f : Unit → Compose β} (hs : s.tokens = t :: ts)
    (ht : t.opening = 1) (hf : Composes (-1) k' (f ())) (hk : k ≤ k' + 2) :
    Composed s 0 k ((drop >>= f).run s) :=
  drop_bind hs hf (by omega) (by omega)

theorem drop_end {t : Token} {ts : List Token} (hs : s.tokens = t :: ts) (ht : t.opening = -1)
    (a : β) : Composed s (-1) k ((drop >>= fun _ => (pure a : Compose β)).run s) :=
  drop_bind hs (Composes.pure (k := k + 2) a) (by omega) (by omega)

theorem get_bind {f : Composer → Compose β} (h : Composed s b k ((f s).run s)) :
    Composed s b k ((get >>= f).run s) := h

theorem nextIs_bind {us : List Token} {f : Bool → Compose β}
    (h : ∀ t ts, s.tokens = t :: ts → Composed s b k ((f (us.contains t)).run s)) :
    Composed s b k ((nextIs us >>= f).run s) := by
  rw [nextIs, bind_assoc]
  exact peek_bind h

theorem nextIs_composes (us : List Token) : Composes 0 k (nextIs us) := by
  intro s
  rw [nextIs]
  exact peek_bind fun t ts _ => Composes.pure (us.contains t) s

theorem nextIs_drop {u : Token} {f : Unit → Compose β} {y : Compose β} (hu : u.opening = 0)
    (hf : Composes b k (f ())) (hy : Composes b k y) :
    Composes b k (nextIs [u] >>= fun next => if next = true then drop >>= f else y) := by
  intro s
  apply nextIs_bind
  intro t ts hs
  by_cases ht : t = u
  · subst ht
    rw [if_pos (by simp)]
    exact drop_still hs hu hf
  · rw [if_neg (by simpa using ht)]
    exact hy s

theorem add_composes (anchor : Option Text) (n : Node) : Composes 0 k (add anchor n) := by
  intro s
  apply get_bind
  rcases anchor with _ | a
  · exact ⟨rfl, [], rfl, rfl⟩
  · dsimp only
    split
    · exact Or.inl rfl
    · exact ⟨rfl, [], rfl, rfl⟩

theorem fill_composes (id : Nat) (n : Node) : Composes 0 k (fill id n) :=
  fun _ => ⟨rfl, [], rfl, rfl⟩

theorem emptyScalar_composes : Composes 0 k emptyScalar := add_composes none _

theorem aliased_composes (name : Text) : Composes 0 k (aliased name) := by
  intro s
  apply get_bind
  split
  · exact Composes.pure _ s
  · exact Composes.fail s

theorem fullTag_composes (t : WrittenTag) : Composes 0 k (fullTag t) := by
  intro s
  rw [fullTag]
  split
  · exact Composes.pure _ s
  · apply get_bind
    split
    · exact Composes.pure _ s
    · exact Composes.fail s

theorem anchor?_composes : Composes 0 k anchor? := by
  intro s
  apply peek_bind
  intro t ts hs
  split
  · exact drop_still hs rfl (Composes.pure _)
  · exact Composes.pure none s

theorem tag?_composes : Composes 0 k tag? := by
  intro s
  apply peek_bind
  intro t ts hs
  split
  · exact drop_still hs rfl (Composes.pure _)
  · exact Composes.pure none s

theorem Composes.andThen (h : Composes 0 k m) (hf : ∀ a, Composes b k (f a)) :
    Composes b k (m >>= f) :=
  h.bind hf (by omega) (Int.le_refl k) (by omega)

theorem properties_composes : Composes 0 k properties := by
  apply anchor?_composes.andThen
  intro first
  apply tag?_composes.andThen
  rintro (_ | t)
  · dsimp only
    split
    · exact anchor?_composes.andThen fun anchor => .pure _
    · exact (Composes.pure first).andThen fun anchor => .pure _
  · have hfull : ∀ anchor, Composes 0 k (fullTag t >>= fun full =>
        (pure (anchor, some full) : Compose (Option Text × Option Text))) := fun anchor =>
      (fullTag_composes t).andThen fun full => .pure _
    dsimp only
    split
    · exact anchor?_composes.andThen hfull
    · exact (Composes.pure first).andThen hfull

theorem bare_composes (anchor tag : Option Text) : Composes 0 k (bare anchor tag) := by
  rw [bare]
  split
  · exact add_composes _ _
  · exact .fail

theorem sequence_composes (d : Nat) (anchor tag : Option Text) {items : Compose (List Nat)}
    (hzero : d = 0 → k < 0) (hitems : 0 < d → Composes b k items) :
    Composes b k (sequence d anchor tag items) := by
  rw [sequence]
  split
  · rename_i hd
    exact .tooDeep (hzero hd)
  · rename_i hd
    apply (add_composes _ _).andThen
    intro id
    exact (hitems (Nat.pos_of_ne_zero hd)).thenStill fun _ xs => (fill_composes _ _).map fun _ => id

theorem mapping_composes (d : Nat) (anchor tag : Option Text) {pairs : Compose (List (Nat × Nat))}
    (hzero : d = 0 → k < 0) (hpairs : 0 < d → Composes b k pairs) :
    Composes b k (mapping d anchor tag pairs) := by
  rw [mapping]
  split
  · rename_i hd
    exact .tooDeep (hzero hd)
  · rename_i hd
    apply (add_composes _ _).andThen
    intro id
    exact (hpairs (Nat.pos_of_ne_zero hd)).thenStill fun _ ps => (fill_composes _ _).map fun _ => id

theorem bareMapping_composed (d : Nat) {pairs : Compose (List (Nat × Nat))}
    (hzero : d = 0 → k < 0)
    (hpairs : 0 < d → ∀ s', s'.tokens = s.tokens → Composed s' b k (pairs.run s')) :
    Composed s b k ((mapping d none none pairs).run s) := by
  rw [mapping]
  split
  · rename_i hd
    exact Composes.tooDeep (hzero hd) s
  · rename_i hd
    let kind := kindOr .map none
    have hrun := hpairs (Nat.pos_of_ne_zero hd)
      { s with graph := ⟨s.graph.nodes.push (.mapping kind [])⟩ } rfl
    exact hrun.thenStill fun _ ps =>
      (fill_composes s.graph.nodes.size (.mapping kind ps)).map fun _ => s.graph.nodes.size

theorem child_composes (us : List Token) {x : Compose Nat} {f : Nat → Compose β}
    (hx : Composes 0 k x) (hf : ∀ id, Composes b k (f id)) :
    Composes b k (nextIs us >>= fun next =>
      if next = true then emptyScalar >>= f else x >>= f) := by
  apply (nextIs_composes us).andThen
  intro next
  exact .ite (emptyScalar_composes.andThen hf) (hx.andThen hf)

theorem separated_composes (us : List Token) (first : Bool) {m : Compose β} (hm : Composes b k m) :
    Composes b k (nextIs us >>= fun next =>
      if (!next && !first) = true then nextIs [.flowEntry] >>= fun next =>
        if next = true then drop >>= fun _ => m else fail >>= fun _ : Unit => m
      else m) := by
  apply (nextIs_composes us).andThen
  intro next
  exact .ite (nextIs_drop rfl hm (Composes.fail.andThen fun _ => hm)) hm

end

/-- What the parts of the composer take, with so many steps left. A node that may be a sequence
which is not indented stands in a pair, and is counted one deeper; so are the pairs of a flow
sequence, which have no tokens that begin them. -/
structure Parts (n : Nat) : Prop where
  node : ∀ (d : Nat) (block : Bool), Composes 0 d (node n d block false)
  looseNode : ∀ (d : Nat) (block : Bool), Composes 0 (d - 1) (Compose.node n d block true)
  blockItems : ∀ d : Nat, Composes (-1) d (blockItems n d)
  looseItems : ∀ d : Nat, Composes 0 d (looseItems n d)
  blockPairs : ∀ d : Nat, Composes (-1) (d - 1) (blockPairs n d)
  blockValue : ∀ d : Nat, Composes 0 (d - 1) (blockValue n d)
  flowItems : ∀ (d : Nat) (first : Bool), Composes (-1) (d - 1) (flowItems n d first)
  singlePair : ∀ (d : Nat) (s : Composer) (ts : List Token), s.tokens = .key :: ts →
    Composed s 0 d ((singlePair n d).run s)
  flowValue : ∀ (d : Nat) (close : Token), Composes 0 d (flowValue n d close)
  flowPairs : ∀ (d : Nat) (first : Bool), Composes (-1) d (flowPairs n d first)

section

variable {n : Nat} (h : Parts n) (d : Nat)

include h

theorem node_composes {k : Int} (block loose : Bool) (hk : k ≤ d)
    (hloose : loose = true → k ≤ d - 1) : Composes 0 k (node (n + 1) d block loose) := by
  intro s
  rw [node]
  apply peek_bind
  intro t ts hs
  split
  · exact drop_still hs rfl (aliased_composes _)
  · refine properties_composes.andThen (fun p => ?_) s
    intro s
    apply peek_bind
    intro t ts hs
    have hbare := bare_composes (k := k) p.1 p.2 s
    split
    · exact drop_still hs rfl (add_composes _ _)
    · exact drop_begin hs rfl (sequence_composes d _ _ (by omega) fun hd =>
        (h.flowItems (d - 1) true).mono (by omega)) (by omega : k ≤ (d - 2 : Int) + 2)
    · exact drop_begin hs rfl (mapping_composes d _ _ (by omega) fun hd =>
        (h.flowPairs (d - 1) true).mono (by omega)) (by omega : k ≤ (d - 2 : Int) + 2)
    · split
      · exact drop_begin hs rfl (sequence_composes d _ _ (by omega) fun hd =>
          (h.blockItems (d - 1)).mono (by omega)) (by omega : k ≤ (d - 2 : Int) + 2)
      · exact hbare
    · split
      · exact drop_begin hs rfl (mapping_composes d _ _ (by omega) fun hd =>
          (h.blockPairs (d - 1)).mono (by omega)) (by omega : k ≤ (d - 2 : Int) + 2)
      · exact hbare
    · split
      · rename_i hl
        have hk' := hloose hl
        exact sequence_composes d _ _ (by omega) (fun hd =>
          (h.looseItems (d - 1)).mono (by omega)) s
      · exact hbare
    · exact hbare

theorem blockItems_composes : Composes (-1) d (blockItems (n + 1) d) := by
  intro s
  rw [blockItems]
  apply peek_bind
  intro t ts hs
  split
  · exact drop_still hs rfl (child_composes _ (h.node d true) fun x => (h.blockItems d).map _)
  · exact drop_end hs rfl []
  · exact Composes.fail s

theorem looseItems_composes : Composes 0 d (looseItems (n + 1) d) := by
  intro s
  rw [looseItems]
  apply peek_bind
  intro t ts hs
  split
  · exact drop_still hs rfl (child_composes _ (h.node d true) fun x => (h.looseItems d).map _)
  · exact Composes.pure [] s

theorem blockPairs_composes : Composes (-1) (d - 1) (blockPairs (n + 1) d) := by
  intro s
  rw [blockPairs]
  apply peek_bind
  intro t ts hs
  split
  · refine drop_still hs rfl (child_composes _ (h.looseNode d true) fun x => ?_)
    exact (h.blockValue d).andThen fun v => (h.blockPairs d).map _
  · exact drop_end hs rfl []
  · exact Composes.fail s

theorem blockValue_composes : Composes 0 (d - 1) (blockValue (n + 1) d) := by
  rw [blockValue]
  refine nextIs_drop rfl ?_ emptyScalar_composes
  apply (nextIs_composes _).andThen
  intro next
  exact .ite emptyScalar_composes (h.looseNode d true)

theorem flowItems_composes (first : Bool) : Composes (-1) (d - 1) (flowItems (n + 1) d first) := by
  rw [flowItems]
  refine separated_composes [.flowSequenceEnd] first fun s => peek_bind fun t ts hs => ?_
  split
  · exact drop_end hs rfl []
  · have hmapping := bareMapping_composed (s := s) (b := 0) (k := d - 1) d (by omega)
      fun hd s' hs' => (h.singlePair (d - 1) s' ts (hs'.trans hs)).mono (by omega)
    exact hmapping.bind (fun x => (h.flowItems d false).map _) rfl (Int.le_refl _) (by omega)
  · exact ((h.node d false).mono (by omega)).andThen (fun x => (h.flowItems d false).map _) s

theorem singlePair_composed {s : Composer} {ts : List Token} (hs : s.tokens = .key :: ts) :
    Composed s 0 d ((singlePair (n + 1) d).run s) := by
  rw [singlePair]
  refine drop_still hs rfl (child_composes _ (h.node d false) fun x => ?_)
  exact (h.flowValue d .flowSequenceEnd).map _

theorem flowValue_composes (close : Token) : Composes 0 d (flowValue (n + 1) d close) := by
  rw [flowValue]
  refine nextIs_drop rfl ?_ emptyScalar_composes
  apply (nextIs_composes _).andThen
  intro next
  exact .ite emptyScalar_composes (h.node d false)

theorem flowPairs_composes (first : Bool) : Composes (-1) d (flowPairs (n + 1) d first) := by
  rw [flowPairs]
  refine separated_composes [.flowMappingEnd] first fun s => peek_bind fun t ts hs => ?_
  split
  · exact drop_end hs rfl []
  · refine drop_still hs rfl (child_composes _ (h.node d false) fun k => ?_)
    exact (h.flowValue d .flowMappingEnd).andThen fun v => (h.flowPairs d false).map _
  · exact (h.node d false).andThen (fun k => emptyScalar_composes.andThen fun v =>
      (h.flowPairs d false).map _) s

end

theorem parts (n : Nat) : Parts n := by
  induction n with
  | zero =>
    exact {
      node := fun d block => by rw [node]; exact .fail
      looseNode := fun d block => by rw [node]; exact .fail
      blockItems := fun d => by rw [blockItems]; exact .fail
      looseItems := fun d => by rw [looseItems]; exact .fail
      blockPairs := fun d => by rw [blockPairs]; exact .fail
      blockValue := fun d => by rw [blockValue]; exact .fail
      flowItems := fun d first => by rw [flowItems]; exact .fail
      singlePair := fun d s ts hs => by rw [singlePair]; exact Composes.fail s
      flowValue := fun d close => by rw [flowValue]; exact .fail
      flowPairs := fun d first => by rw [flowPairs]; exact .fail }
  | succ n ih =>
    exact {
      node := fun d block => node_composes ih d block false (Int.le_refl _) (by simp)
      looseNode := fun d block => node_composes ih d block true (by omega) (by simp)
      blockItems := blockItems_composes ih
      looseItems := looseItems_composes ih
      blockPairs := blockPairs_composes ih
      blockValue := blockValue_composes ih
      flowItems := flowItems_composes ih
      singlePair := fun d s ts hs => singlePair_composed ih d hs
      flowValue := flowValue_composes ih
      flowPairs := flowPairs_composes ih }

section

variable {k : Int}

theorem directives_composes (n : Nat) (versioned : Bool) (hs : List (Text × Text)) :
    Composes 0 k (directives n versioned hs) := by
  induction n generalizing versioned hs with
  | zero => exact .pure hs
  | succ n ih =>
    intro s
    rw [directives]
    apply peek_bind
    intro t ts ht
    split
    · refine drop_still ht rfl ?_
      exact .ite .fail (ih true hs)
    · refine drop_still ht rfl ?_
      exact .ite .fail (ih versioned _)
    · exact drop_still ht rfl (ih versioned hs)
    · exact Composes.pure hs s

theorem skipEnds_composes (n : Nat) : Composes 0 k (skipEnds n) := by
  induction n with
  | zero => exact .pure ()
  | succ n ih => exact nextIs_drop rfl ih (.pure ())

theorem content_composes (n d : Nat) : Composes 0 d (content n d) := by
  intro s
  rw [content]
  apply peek_bind
  intro t ts hs
  split
  · exact emptyScalar_composes s
  · exact emptyScalar_composes s
  · exact emptyScalar_composes s
  · exact emptyScalar_composes s
  · exact (parts n).node d true s

theorem peek_composes : Composes 0 k peek := by
  intro s
  rcases hs : s.tokens with _ | ⟨t, ts⟩
  · rw [peek_nil hs]
    rcases hfault : s.fault with _ | g
    · exact Or.inl rfl
    · exact Or.inr (Or.inl hfault)
  · rw [peek_cons hs]
    exact Composes.pure t s

theorem atEnd_composes : Composes 0 k atEnd := by
  intro s
  apply peek_bind
  intro t ts hs
  exact ⟨rfl, [], rfl, rfl⟩

theorem single_composes (n d : Nat) : Composes 0 d (single n d) := by
  have hend : ∀ root : Nat, Composes 0 d (do
      skipEnds n
      if ← atEnd then pure (some root)
      else
        let _ ← directives n false []
        fail : Compose (Option Nat)) := by
    intro root
    apply (skipEnds_composes n).andThen
    intro _
    apply atEnd_composes.andThen
    intro _
    exact .ite (.pure _) ((directives_composes n false []).andThen fun _ => .fail)
  intro s
  rw [single]
  apply peek_bind
  intro t ts hs
  refine atEnd_composes.andThen (fun _ => .ite (.pure none) ?_) s
  apply (directives_composes n false []).andThen
  intro handles
  have hmodify : Composes 0 d (modify fun s =>
      { s with handles := handles ++ usualHandles } : Compose Unit) :=
    fun _ => ⟨rfl, [], rfl, rfl⟩
  apply hmodify.andThen
  intro _
  exact .ite (nextIs_drop rfl ((content_composes n d).andThen hend) (Composes.fail.andThen hend))
    (((parts n).node d true).andThen hend)

/-- Nothing comes of a state with a fault behind its tokens. -/
def Whole {α : Type} (m : Compose α) : Prop := ∀ s p, m.run s = .ok p → s.fault = none

theorem Whole.fail {α : Type} : Whole (fail : Compose α) := by
  intro s p h
  cases h

theorem Whole.ite {α : Type} {p : Prop} [Decidable p] {x y : Compose α} (hx : Whole x)
    (hy : Whole y) : Whole (if p then x else y) := by
  split
  · exact hx
  · exact hy

theorem Composes.fault_eq {α : Type} {b : Int} {m : Compose α} {s s' : Composer} {a : α}
    (hm : Composes b k m) (hrun : m.run s = .ok (a, s')) : s'.fault = s.fault := by
  have hs := hm s
  rw [hrun] at hs
  exact hs.1

theorem drop_fault_eq {s s' : Composer} {a : Unit} (hrun : drop.run s = .ok (a, s')) :
    s'.fault = s.fault := by
  rw [drop, StateT.run_bind] at hrun
  obtain ⟨⟨t, s₁⟩, hpeek, hrun⟩ := bind_eq_ok hrun
  have hsame := (peek_composes (k := 0)).fault_eq hpeek
  cases hrun
  exact hsame

theorem Whole.after {α β : Type} {m : Compose α} {f : α → Compose β}
    (hm : ∀ s a s', m.run s = .ok (a, s') → s'.fault = s.fault) (hf : ∀ a, Whole (f a)) :
    Whole (m >>= f) := by
  intro s p h
  rw [StateT.run_bind] at h
  obtain ⟨⟨a, s'⟩, hrun, h⟩ := bind_eq_ok h
  rw [← hm s a s' hrun]
  exact hf a s' p h

theorem Whole.atEnd {α : Type} {x y : Compose α} (hy : Whole y) :
    Whole (atEnd >>= fun e => if e then x else y) := by
  intro s p h
  rw [StateT.run_bind] at h
  obtain ⟨⟨e, s'⟩, hrun, hthen⟩ := bind_eq_ok h
  have hatEnd : s' = s ∧ (e = true → s.fault = none) := by
    rcases hs : s.tokens with _ | ⟨t, ts⟩
    · rw [Compose.atEnd, StateT.run_bind, peek_nil hs] at hrun
      cases hrun
    · rw [Compose.atEnd, StateT.run_bind, peek_cons hs] at hrun
      cases hrun
      refine ⟨rfl, fun he => ?_⟩
      rw [Bool.and_eq_true] at he
      exact Option.isNone_iff_eq_none.1 he.2
  obtain ⟨rfl, he⟩ := hatEnd
  dsimp only at hthen
  split at hthen
  · rename_i htrue
    exact he htrue
  · exact hy s' p hthen

theorem single_whole (n d : Nat) : Whole (single n d) := by
  have hend : ∀ root : Nat, Whole (do
      skipEnds n
      if ← atEnd then pure (some root)
      else
        let _ ← directives n false []
        fail : Compose (Option Nat)) := by
    intro root
    apply Whole.after fun s a s' => (skipEnds_composes (k := 0) n).fault_eq
    intro _
    apply Whole.atEnd
    exact .after (fun s a s' => (directives_composes (k := 0) n false []).fault_eq) fun _ => .fail
  rw [single]
  apply Whole.after fun s a s' => (peek_composes (k := 0)).fault_eq
  intro t
  apply Whole.atEnd
  apply Whole.after fun s a s' => (directives_composes (k := 0) n false []).fault_eq
  intro handles
  apply Whole.after fun s a s' hrun => by
    cases hrun
    rfl
  intro _
  refine .ite ?_ (.after (fun s a s' => ((parts n).node d true).fault_eq) hend)
  apply Whole.after fun s a s' => (nextIs_composes (k := 0) _).fault_eq
  intro next
  refine .ite ?_ (.after (fun s a s' hrun => by cases hrun) hend)
  apply Whole.after fun s a s' => drop_fault_eq
  intro _
  exact .after (fun s a s' => (content_composes n d).fault_eq) hend

end

end Compose

theorem TooLarge.mono {s t : Text} {f : Fault} (h : TooLarge s f) (hst : s <:+: t) :
    TooLarge t f := by
  cases h with
  | escape run digits eight refused => exact .escape (run.trans hst) digits eight refused
  | version run all many => exact .version (run.trans hst) all many

theorem admitted_spec (fault : Option Utf8.Unreadable) (n size : Nat) (t : Text) :
    (admitted fault n size t).1 <+: t ∧ ∀ f, (admitted fault n size t).2 = some f →
      f = .yaml ∨ ∃ u, fault = some u ∧ f = .unreadable u := by
  induction n generalizing size t with
  | zero => exact ⟨List.nil_prefix, nofun⟩
  | succ n ih =>
    rw [admitted]
    split
    · refine ⟨List.nil_prefix, fun f hf => ?_⟩
      obtain ⟨u, hu, rfl⟩ := Option.map_eq_some_iff.1 hf
      exact Or.inr ⟨u, hu, rfl⟩
    · split
      · exact ⟨List.nil_prefix, nofun⟩
      · split
        · obtain ⟨hfront, hfault⟩ := ih partSize (t.drop size)
          refine ⟨?_, hfault⟩
          have htaken := (List.prefix_append_right_inj (t.take size)).2 hfront
          rwa [List.take_append_drop] at htaken
        · refine ⟨List.nil_prefix, fun f hf => ?_⟩
          cases hf
          exact Or.inl rfl

theorem admitted_whole {fault : Option Utf8.Unreadable} {n size : Nat} {t : Text}
    (hn : t.length < n) (hsize : 0 < size) (h : (admitted fault n size t).2 = none) :
    fault = none := by
  induction n generalizing size t with
  | zero => exact absurd hn (Nat.not_lt_zero _)
  | succ n ih =>
    rw [admitted] at h
    split at h
    · exact Option.map_eq_none_iff.1 h
    · rename_i hshort
      split at h
      · rename_i hnil
        rw [List.isEmpty_iff.1 hnil] at hshort
        rcases fault with _ | u
        · rfl
        · exact absurd ⟨rfl, hsize⟩ hshort
      · rename_i hnil
        split at h
        · have hpos : 0 < t.length := List.length_pos_iff.2 fun ht => hnil (List.isEmpty_iff.2 ht)
          refine ih (t := t.drop size) ?_ (by decide) h
          rw [List.length_drop]
          omega
        · cases h

theorem streamTokens_fault {s : TextStream} {f : Fault} (h : (streamTokens s).2 = some f) :
    f = .yaml ∨ (∃ u, s.fault = some u ∧ f = .unreadable u) ∨ TooLarge s.text f := by
  obtain ⟨hfront, hfault⟩ :=
    admitted_spec s.fault (s.text.length + 1) (2 * partSize) s.text
  obtain hyaml | hmet | hlarge := tokens_fault h
  · exact Or.inl hyaml
  · exact (hfault f hmet).imp_right Or.inl
  · exact Or.inr (Or.inr (hlarge.mono hfront.isInfix))

theorem streamTokens_whole {s : TextStream} (h : (streamTokens s).2 = none) : s.fault = none := by
  have hadmitted := Lexer.scan_whole h
  exact admitted_whole (Nat.lt_succ_self _) (by decide) hadmitted

/-- A stream that is composed to no nodes is no document, cannot be read, has a number that is too
large, or has more than half as many collections open at some place as may stand in each other. -/
theorem compose_error {limits : Limits} {s : TextStream} {f : Fault}
    (h : compose limits s = .error f) :
    f = .yaml ∨ (∃ u, s.fault = some u ∧ f = .unreadable u) ∨ TooLarge s.text f ∨
      f = .tooDeep ∧ Deep limits.nesting (streamTokens s).1 := by
  unfold compose at h
  have hsingle := Compose.single_composes (6 * (streamTokens s).1.length + 20) limits.nesting
    ⟨(streamTokens s).1, (streamTokens s).2, Compose.usualHandles, [], ⟨#[]⟩⟩
  dsimp only at h
  rcases hrun : (Compose.single (6 * (streamTokens s).1.length + 20) limits.nesting).run
      ⟨(streamTokens s).1, (streamTokens s).2, Compose.usualHandles, [], ⟨#[]⟩⟩ with g | p
  · rw [hrun] at h hsingle
    obtain rfl : g = f := Except.error.inj h
    obtain hyaml | hfault | hdeep := hsingle
    · exact Or.inl hyaml
    · exact (streamTokens_fault hfault).imp_right (Or.imp_right Or.inl)
    · exact Or.inr (Or.inr (Or.inr hdeep))
  · rw [hrun] at h
    cases h

theorem compose_whole {limits : Limits} {s : TextStream} {p : Option Nat × Graph}
    (h : compose limits s = .ok p) : s.fault = none := by
  obtain ⟨q, hrun, -⟩ := bind_eq_ok h
  exact streamTokens_whole (Compose.single_whole _ _ _ _ hrun)

end HostTelemetry.Yaml
