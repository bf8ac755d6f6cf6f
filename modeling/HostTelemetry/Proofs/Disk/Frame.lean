import HostTelemetry.Metric.File
import HostTelemetry.Proofs.Disk.Tape

/-!
# What stays on a disk

Opening files and making folders only adds to the tree: a path that led somewhere leads there
still, and a file keeps its bytes unless it is the one that is emptied.
-/

set_option autoImplicit false

namespace HostTelemetry

namespace Disk

def held (d : Disk) (l : Location) : Bytes :=
  match d.node? l with
  | some (.file id) => d.content id
  | _ => []

/-- What a file begins with that is opened at a path. -/
def base (d : Disk) (p : Path) (keep : Bool) : Bytes :=
  if keep then (d.read p).toOption.getD [] else []

def file? (d : Disk) (p : Path) : Option Nat :=
  match d.locate p with
  | .ok l =>
    match d.node? l with
    | some (.file id) => some id
    | _ => none
  | .error _ => none

def Extends (d d' : Disk) : Prop := ∀ l n, d.node? l = some n → d'.node? l = some n

theorem Extends.refl (d : Disk) : d.Extends d := fun _ _ h => h

theorem Extends.trans {d d' d'' : Disk} (a : d.Extends d') (b : d'.Extends d'') : d.Extends d'' :=
  fun l n h => b l n (a l n h)

theorem node?_added (d : Disk) (l m : Location) (n : Node) (content : Nat → Bytes) (fresh : Nat) :
    (Disk.mk (d.nodes ++ [(m, n)]) content fresh).node? l =
      ((d.node? l).or (if m = l then some n else none)) := by
  by_cases hl : l = []
  · simp [node?, hl]
  · simp only [node?, hl, if_false, List.find?_append]
    cases List.find? (fun n => n.1 == l) d.nodes with
    | some a => simp
    | none =>
      by_cases hm : m = l <;> simp [hm]

theorem added_extends (d : Disk) (m : Location) (n : Node) (content : Nat → Bytes) (fresh : Nat) :
    d.Extends (Disk.mk (d.nodes ++ [(m, n)]) content fresh) := by
  intro l x h
  rw [node?_added, h]
  rfl

theorem setContent_extends (d : Disk) (id : Nat) (x : Bytes) : d.Extends (d.setContent id x) :=
  fun _ _ h => h

theorem step_extends {d d' : Disk} (h : d.Extends d') (l m : Location) (n : FileName)
    (hs : d.step l n = .ok m) : d'.step l n = .ok m := by
  unfold step at hs ⊢
  rcases hn : d.node? l with _ | _ | id
  · simp [hn] at hs
  · rw [hn] at hs
    rw [h l _ hn]
    exact hs
  · simp [hn] at hs

theorem walk_extends {d d' : Disk} (h : d.Extends d') (ns : List FileName) (l m : Location)
    (hw : d.walk l ns = .ok m) : d'.walk l ns = .ok m := by
  induction ns generalizing l with
  | nil => exact hw
  | cons n ns ih =>
    unfold walk at hw ⊢
    rcases hs : d.step l n with code | k
    · simp [hs] at hw
    · rw [hs] at hw
      rw [step_extends h l k n hs]
      exact ih k hw

theorem locate_extends {d d' : Disk} (h : d.Extends d') (p : Path) (l : Location)
    (hl : d.locate p = .ok l) : d'.locate p = .ok l := by
  unfold locate at hl ⊢
  rcases hn : p.fileNames? with f | names
  · simp [hn, bind, Except.bind] at hl
  · simp only [hn, bind, Except.bind] at hl ⊢
    split at hl
    · simp at hl
    · rename_i hshort
      rw [if_neg hshort]
      rcases hw : d.walk (if p.slashes = 0 then here else []) names with code | m
      · simp [hw] at hl
      · rw [hw] at hl
        rw [walk_extends h _ _ m hw]
        exact hl

theorem file?_extends {d d' : Disk} (h : d.Extends d') (p : Path) (id : Nat)
    (hf : d.file? p = some id) : d'.file? p = some id := by
  unfold file? at hf ⊢
  rcases hl : d.locate p with f | l
  · simp [hl] at hf
  · rw [locate_extends h p l hl]
    rw [hl] at hf
    rcases hn : d.node? l with _ | _ | i
    · simp [hn] at hf
    · simp [hn] at hf
    · simp only [h l _ hn]
      simpa [hn] using hf

theorem file?_of_node {d : Disk} {p : Path} {l : Location} {id : Nat} (hl : d.locate p = .ok l)
    (hn : d.node? l = some (.file id)) : d.file? p = some id := by
  simp [file?, hl, hn]

theorem node_of_file? {d : Disk} {p : Path} {id : Nat} (h : d.file? p = some id) :
    ∃ l, d.locate p = .ok l ∧ d.node? l = some (.file id) := by
  unfold file? at h
  rcases hl : d.locate p with f | l
  · simp [hl] at h
  · rcases hn : d.node? l with _ | _ | i
    · simp [hl, hn] at h
    · simp [hl, hn] at h
    · simp only [hl, hn, Option.some.injEq] at h
      exact ⟨l, rfl, by rw [hn, h]⟩

theorem held_of_node {d : Disk} {l : Location} {id : Nat} (hn : d.node? l = some (.file id)) :
    d.held l = d.content id := by
  simp [held, hn]

theorem acquire_cases {d d' : Disk} {p : Path} {keep : Bool} {id : Nat}
    (h : d.acquire p keep = .ok (id, d')) :
    ∃ l, d.locate p = .ok l ∧
      ((d.node? l = some (.file id) ∧ d' = if keep then d else d.setContent id []) ∨
        (d.node? l = none ∧ id = d.fresh ∧ d' = d.create l [])) := by
  unfold acquire at h
  rcases hl : d.locate p with f | l
  · simp [hl, bind, Except.bind] at h
  · refine ⟨l, rfl, ?_⟩
    simp only [hl, bind, Except.bind] at h
    rcases hn : d.node? l with _ | _ | i
    · simp only [hn] at h
      obtain ⟨rfl, rfl⟩ := Prod.mk.inj (Except.ok.inj h)
      exact Or.inr ⟨rfl, rfl, rfl⟩
    · simp [hn] at h
    · simp only [hn] at h
      obtain ⟨rfl, rfl⟩ := Prod.mk.inj (Except.ok.inj h)
      exact Or.inl ⟨rfl, rfl⟩

/-- After opening, the path leads to the open file, and nothing else has changed. -/
theorem acquire_frame {d d' : Disk} {p : Path} {keep : Bool} {id : Nat}
    (h : d.acquire p keep = .ok (id, d')) :
    ∃ l, d.locate p = .ok l ∧ d'.locate p = .ok l ∧ d'.node? l = some (.file id) ∧ d.Extends d' ∧
      (∀ i, i ≠ id → d'.content i = d.content i) ∧
      (∀ m i, d'.node? m = some (.file i) → d.node? m = some (.file i) ∨ m = l ∧ i = d.fresh) := by
  obtain ⟨l, hl, ⟨hn, rfl⟩ | ⟨hn, rfl, rfl⟩⟩ := acquire_cases h
  · refine ⟨l, ?_⟩
    cases keep with
    | true => exact ⟨hl, hl, hn, .refl d, fun _ _ => rfl, fun _ _ h => Or.inl h⟩
    | false =>
      have hext := setContent_extends d id []
      exact ⟨hl, locate_extends hext p l hl, hn, hext,
        fun i hi => d.setContent_other id i [] hi, fun _ _ h => Or.inl h⟩
  · have hext : d.Extends (d.create l []) := added_extends d l (.file d.fresh) _ _
    have hnode : ∀ m, (d.create l []).node? m =
        (d.node? m).or (if l = m then some (.file d.fresh) else none) := fun m =>
      node?_added d m l (.file d.fresh) _ _
    refine ⟨l, hl, locate_extends hext p l hl, by simp [hnode, hn], hext, ?_, ?_⟩
    · intro i hi
      simp [create, hi]
    · intro m i hm
      rw [hnode] at hm
      rcases hdm : d.node? m with _ | n
      · rw [hdm] at hm
        by_cases hlm : l = m
        · exact Or.inr ⟨hlm.symm, by simpa [hlm] using hm.symm⟩
        · simp [hlm] at hm
      · rw [hdm] at hm
        exact Or.inl (by simpa using hm)

theorem held_congr {d d' : Disk} {l : Location} (hext : d.Extends d')
    (hfile : ∀ i, d'.node? l = some (.file i) →
      d.node? l = some (.file i) ∧ d'.content i = d.content i) : d'.held l = d.held l := by
  cases hl : d'.node? l with
  | none =>
    have hnone : d.node? l = none := by
      cases hd : d.node? l with
      | none => rfl
      | some n =>
        have hn := hext l n hd
        rw [hl] at hn
        cases hn
    simp [held, hl, hnone]
  | some n =>
    cases n with
    | file i =>
      obtain ⟨hn, hcontent⟩ := hfile i hl
      rw [held_of_node hl, held_of_node hn, hcontent]
    | folder =>
      have hno : ∀ i, d.node? l ≠ some (.file i) := by
        intro i hi
        have hn := hext l _ hi
        rw [hl] at hn
        cases hn
      simp only [held, hl]

theorem acquire_held {d d' : Disk} {p : Path} {keep : Bool} {id : Nat}
    (h : d.acquire p keep = .ok (id, d')) {l : Location}
    (hother : d'.node? l ≠ some (.file id)) : d'.held l = d.held l := by
  obtain ⟨k, -, -, hnode, hext, hcontent, hnew⟩ := acquire_frame h
  apply held_congr hext
  intro i hi
  have hid : i ≠ id := by
    intro heq
    rw [heq] at hi
    exact hother hi
  rcases hnew l i hi with hold | ⟨hlk, -⟩
  · exact ⟨hold, hcontent i hid⟩
  · rw [hlk] at hother
    exact absurd hnode hother

theorem read_of_node {d : Disk} {p : Path} {l : Location} {id : Nat} (hl : d.locate p = .ok l)
    (hn : d.node? l = some (.file id)) : d.read p = .ok (d.content id) := by
  simp [read, hl, hn, bind, Except.bind]

theorem read_of_file? {d : Disk} {p : Path} {id : Nat} (h : d.file? p = some id) :
    d.read p = .ok (d.content id) := by
  obtain ⟨l, hl, hn⟩ := node_of_file? h
  exact read_of_node hl hn

theorem setContent_walk (d : Disk) (id : Nat) (x : Bytes) (l : Location) (ns : List FileName) :
    (d.setContent id x).walk l ns = d.walk l ns := by
  induction ns generalizing l with
  | nil => rfl
  | cons n ns ih =>
    have hstep : (d.setContent id x).step l n = d.step l n := rfl
    unfold walk
    rw [hstep]
    rcases d.step l n with code | m
    · rfl
    · exact ih m

theorem setContent_locate (d : Disk) (id : Nat) (x : Bytes) (p : Path) :
    (d.setContent id x).locate p = d.locate p := by
  unfold locate
  simp only [setContent_walk]

theorem setContent_read {d : Disk} {id : Nat} {p : Path} (other : d.file? p ≠ some id)
    (x : Bytes) : (d.setContent id x).read p = d.read p := by
  unfold read
  rw [setContent_locate]
  rcases hl : d.locate p with f | l
  · rfl
  · have hnode : (d.setContent id x).node? l = d.node? l := rfl
    simp only [bind, Except.bind]
    rw [hnode]
    rcases hn : d.node? l with _ | _ | i
    · rfl
    · rfl
    · rw [file?_of_node hl hn] at other
      have hi : i ≠ id := fun h => other (congrArg some h)
      dsimp only
      rw [setContent_other d id i x hi]

theorem base_of_locate {d : Disk} {p : Path} {l : Location} (keep : Bool) (hl : d.locate p = .ok l) :
    d.base p keep = if keep then d.held l else [] := by
  simp only [base, read, hl, held, bind, Except.bind]
  rcases d.node? l with _ | _ | id <;> rfl

theorem acquire_base {d d' : Disk} {p : Path} {keep : Bool} {id : Nat}
    (h : d.acquire p keep = .ok (id, d')) : d'.content id = d.base p keep := by
  obtain ⟨l, hl, ⟨hn, rfl⟩ | ⟨hn, rfl, rfl⟩⟩ := acquire_cases h
  · cases keep with
    | true => simp [base, read_of_node hl hn, Except.toOption]
    | false => simp [base]
  · simp [base, create, read, hl, hn, bind, Except.bind, Except.toOption]

theorem acquire_file {d : Disk} {p : Path} {id : Nat} (h : d.file? p = some id) :
    d.acquire p true = .ok (id, d) := by
  obtain ⟨l, hl, hn⟩ := node_of_file? h
  simp [acquire, hl, hn, bind, Except.bind]

theorem file?_of_acquire_error {d : Disk} {p : Path} {keep : Bool} {f : Fault}
    (h : d.acquire p keep = .error f) : d.file? p = none := by
  cases hfile : d.file? p with
  | none => rfl
  | some id =>
    obtain ⟨l, hl, hn⟩ := node_of_file? hfile
    simp [acquire, hl, hn, bind, Except.bind] at h

/-- Only folders were added. -/
structure Furnishes (d d' : Disk) : Prop where
  extends_ : d.Extends d'
  files : ∀ l id, d'.node? l = some (.file id) → d.node? l = some (.file id)
  content_eq : d'.content = d.content
  fresh_eq : d'.fresh = d.fresh

theorem Furnishes.refl (d : Disk) : d.Furnishes d :=
  ⟨.refl d, fun _ _ h => h, rfl, rfl⟩

theorem Furnishes.held_eq {d d' : Disk} (a : d.Furnishes d') (l : Location) :
    d'.held l = d.held l := by
  apply held_congr a.extends_
  intro i hi
  exact ⟨a.files l i hi, by rw [a.content_eq]⟩

theorem Furnishes.trans {d d' d'' : Disk} (a : d.Furnishes d') (b : d'.Furnishes d'') :
    d.Furnishes d'' :=
  ⟨a.extends_.trans b.extends_, fun l id h => a.files l id (b.files l id h),
    b.content_eq.trans a.content_eq, b.fresh_eq.trans a.fresh_eq⟩

theorem makeFolder_furnishes {d d' : Disk} {p : Path} (h : d.makeFolder p = .ok d') :
    d.Furnishes d' := by
  unfold makeFolder at h
  rcases hl : d.locate p with f | l
  · simp [hl, bind, Except.bind] at h
  · simp only [hl, bind, Except.bind] at h
    rcases hn : d.node? l with _ | n
    · simp only [hn] at h
      obtain rfl := Except.ok.inj h
      refine ⟨added_extends d l .folder _ _, ?_, rfl, rfl⟩
      intro m id hm
      rw [node?_added] at hm
      rcases hdm : d.node? m with _ | n
      · by_cases hlm : l = m <;> simp [hdm, hlm] at hm
      · simpa [hdm] using hm
    · simp [hn] at h

end Disk

theorem MetricFile.acquire_empty : acquire ⟨0, [lit "m"]⟩ .empty =
    (.ok ⟨⟨0, [lit "m"]⟩⟩, Disk.empty.create (Disk.here ++ [[109]]) []) := by
  have hfolder : Disk.empty.ensureFolder (Path.parent ⟨0, [lit "m"]⟩) = (.ok (), .empty) := by
    rw [Disk.ensureFolder]
    rfl
  rw [acquire, hfolder]
  rfl

end HostTelemetry
