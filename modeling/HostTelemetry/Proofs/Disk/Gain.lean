import HostTelemetry.Proofs.Disk.Frame

/-!
# What a disk gains

A metrics file is acquired together with the folders above it. However that ends, the disk keeps
all that it holds. What it gains are folders on the way to the file, and the file, which is empty.
-/

set_option autoImplicit false

namespace HostTelemetry

structure Path.OnWay (q p : Path) : Prop where
  slashes_eq : q.slashes = p.slashes
  names : q.names <+: p.names

namespace Path

theorem OnWay.refl (p : Path) : p.OnWay p := ⟨rfl, List.prefix_rfl⟩

theorem OnWay.of_parent {q p : Path} (h : q.OnWay p.parent) : q.OnWay p :=
  ⟨h.slashes_eq, h.names.trans (List.dropLast_prefix _)⟩

end Path

namespace Disk

def Numbered (d : Disk) : Prop := ∀ l id, d.node? l = some (.file id) → id < d.fresh

theorem empty_numbered : empty.Numbered := by
  intro l id h
  unfold node? empty at h
  split at h
  · cases h
  · by_cases hl : here = l <;> simp [hl] at h

theorem Furnishes.numbered {d d' : Disk} (a : d.Furnishes d') (h : d.Numbered) : d'.Numbered := by
  intro l id hl
  rw [a.fresh_eq]
  exact h l id (a.files l id hl)

theorem create_node? (d : Disk) (l m : Location) (bs : Bytes) :
    (d.create l bs).node? m = (d.node? m).or (if l = m then some (.file d.fresh) else none) :=
  node?_added d m l (.file d.fresh) _ _

theorem create_numbered {d : Disk} (h : d.Numbered) (l : Location) (bs : Bytes) :
    (d.create l bs).Numbered := by
  intro m id hm
  have hfresh : (d.create l bs).fresh = d.fresh + 1 := rfl
  rw [create_node?] at hm
  rw [hfresh]
  rcases hd : d.node? m with _ | n
  · rw [hd, Option.none_or] at hm
    split at hm
    · obtain rfl := Node.file.inj (Option.some.inj hm)
      exact Nat.lt_succ_self _
    · cases hm
  · rw [hd, Option.some_or] at hm
    exact Nat.lt_succ_of_lt (h m id (hd.trans hm))

theorem acquire_numbered {d d' : Disk} {p : Path} {keep : Bool} {id : Nat} (numbered : d.Numbered)
    (h : d.acquire p keep = .ok (id, d')) : d'.Numbered := by
  obtain ⟨l, -, ⟨-, rfl⟩ | ⟨-, -, rfl⟩⟩ := acquire_cases h
  · cases keep with
    | true => exact numbered
    | false => exact numbered
  · exact create_numbered numbered l []

/-- All that a disk holds is kept, and what is new are folders on the way to a path. -/
structure Paves (p : Path) (d d' : Disk) : Prop where
  furnishes : d.Furnishes d'
  folders : ∀ l, d'.node? l = some .folder →
    d.node? l = some .folder ∨ ∃ q, q.OnWay p ∧ d'.locate q = .ok l

theorem Paves.refl (p : Path) (d : Disk) : d.Paves p d := ⟨.refl d, fun _ h => Or.inl h⟩

theorem Paves.trans {p q : Path} {d d' d'' : Disk} (a : d.Paves p d') (b : d'.Paves q d'')
    (hp : ∀ r : Path, r.OnWay p → r.OnWay q) : d.Paves q d'' := by
  constructor
  case furnishes => exact a.furnishes.trans b.furnishes
  case folders =>
    intro l hl
    obtain hl | h := b.folders l hl
    · obtain hl | ⟨r, hr, hlocate⟩ := a.folders l hl
      · exact Or.inl hl
      · exact Or.inr ⟨r, hp r hr, locate_extends b.furnishes.extends_ r l hlocate⟩
    · exact Or.inr h

theorem makeFolder_paves {d d' : Disk} {p : Path} (h : d.makeFolder p = .ok d') :
    d.Paves p d' := by
  have hfurnishes := makeFolder_furnishes h
  constructor
  case furnishes => exact hfurnishes
  case folders =>
    unfold makeFolder at h
    rcases hl : d.locate p with f | l
    · simp [hl, bind, Except.bind] at h
    · simp only [hl, bind, Except.bind] at h
      rcases hn : d.node? l with _ | n
      · simp only [hn] at h
        obtain rfl := Except.ok.inj h
        intro m hm
        rw [node?_added] at hm
        rcases hd : d.node? m with _ | x
        · by_cases hlm : l = m
          · exact Or.inr ⟨p, .refl p, hlm ▸ locate_extends hfurnishes.extends_ p l hl⟩
          · simp [hd, hlm] at hm
        · rw [hd, Option.some_or] at hm
          exact Or.inl hm
      · simp [hn] at h

theorem ensureLast_paves (d : Disk) (p : Path) : d.Paves p (d.ensureLast p).2 := by
  unfold ensureLast
  rcases hm : d.makeFolder p with f | d'
  · dsimp only
    split
    · split <;> exact .refl p d
    · exact .refl p d
  · exact makeFolder_paves hm

/-- Making a folder with those above it makes folders on the way to it only, also if it fails. -/
theorem ensureFolder_paves (d : Disk) (p : Path) : d.Paves p (d.ensureFolder p).2 := by
  fun_induction ensureFolder d p with
  | case1 d p d' u h => simpa [h] using ensureLast_paves d p
  | case2 d p f d' h hk u d'' hu ih =>
    have hlast : d.Paves p d' := by simpa [h] using ensureLast_paves d p
    have habove : d'.Paves p.parent d'' := by simpa [hu] using ih
    have hall : d'.Paves p (d''.ensureLast p).2 :=
      habove.trans (ensureLast_paves d'' p) fun _ h => h.of_parent
    exact hlast.trans hall fun _ h => h
  | case3 d p f d' h hk g d'' hg ih =>
    have hlast : d.Paves p d' := by simpa [h] using ensureLast_paves d p
    have habove : d'.Paves p.parent d'' := by simpa [hg] using ih
    exact hlast.trans (habove.trans (.refl p d'') fun _ h => h.of_parent) fun _ h => h
  | case4 d p f d' h hk => simpa [h] using ensureLast_paves d p

/-- All that a disk holds is kept, and what is new are folders on the way to a file, and this file,
which is empty. -/
structure Gains (p : Path) (d d' : Disk) : Prop where
  extends_ : d.Extends d'
  held : ∀ l id, d.node? l = some (.file id) → d'.content id = d.content id
  gained : ∀ l n, d'.node? l = some n → d.node? l = some n ∨
    n = .folder ∧ (∃ q : Path, q.OnWay p.parent ∧ d'.locate q = .ok l) ∨
    ∃ id, n = .file id ∧ d'.content id = [] ∧ d'.locate p = .ok l

theorem Paves.gains {p : Path} {d d' : Disk} (a : d.Paves p.parent d') : d.Gains p d' := by
  constructor
  case extends_ => exact a.furnishes.extends_
  case held =>
    intro l id _
    rw [a.furnishes.content_eq]
  case gained =>
    intro l n hl
    cases n with
    | folder => exact (a.folders l hl).imp_right fun h => Or.inl ⟨rfl, h⟩
    | file id => exact Or.inl (a.furnishes.files l id hl)

theorem acquire_gains {d d' : Disk} {p : Path} {id : Nat} (numbered : d.Numbered)
    (h : d.acquire p true = .ok (id, d')) : d.Gains p d' := by
  obtain ⟨l, -, hl, -, hextends, -⟩ := acquire_frame h
  obtain ⟨m, hm, ⟨-, rfl⟩ | ⟨hn, -, rfl⟩⟩ := acquire_cases h
  · exact (Paves.refl p.parent d').gains
  · obtain rfl : m = l := Except.ok.inj ((locate_extends hextends p m hm).symm.trans hl)
    constructor
    case extends_ => exact hextends
    case held =>
      intro k i hk
      exact if_neg (Nat.ne_of_lt (numbered k i hk))
    case gained =>
      intro k n hk
      rw [create_node?] at hk
      rcases hd : d.node? k with _ | x
      · rw [hd, Option.none_or] at hk
        split at hk
        · rename_i hmk
          obtain rfl := Option.some.inj hk
          exact Or.inr (Or.inr ⟨d.fresh, rfl, if_pos rfl, hmk ▸ hl⟩)
        · cases hk
      · rw [hd, Option.some_or] at hk
        exact Or.inl hk

theorem Gains.held_eq {p : Path} {d d' : Disk} (a : d.Gains p d') (l : Location) :
    d'.held l = d.held l := by
  cases hd : d.node? l with
  | some n =>
    have hd' := a.extends_ l n hd
    cases n with
    | folder => simp [Disk.held, hd, hd']
    | file id => rw [held_of_node hd, held_of_node hd', a.held l id hd]
  | none =>
    have hnone : d.held l = [] := by simp [Disk.held, hd]
    rw [hnone]
    cases hd' : d'.node? l with
    | none => simp [Disk.held, hd']
    | some n =>
      rcases a.gained l n hd' with hold | ⟨rfl, -⟩ | ⟨id, rfl, hempty, -⟩
      · rw [hd] at hold
        cases hold
      · simp [Disk.held, hd']
      · rw [held_of_node hd', hempty]

theorem Gains.after {p : Path} {d d' d'' : Disk} (a : d.Paves p.parent d') (b : d'.Gains p d'') :
    d.Gains p d'' := by
  constructor
  case extends_ => exact a.furnishes.extends_.trans b.extends_
  case held =>
    intro l id hl
    rw [b.held l id (a.furnishes.extends_ l _ hl), a.furnishes.content_eq]
  case gained =>
    intro l n hl
    obtain hl | h := b.gained l n hl
    · cases n with
      | folder =>
        obtain hl | ⟨q, hq, hlocate⟩ := a.folders l hl
        · exact Or.inl hl
        · exact Or.inr (Or.inl ⟨rfl, q, hq, locate_extends b.extends_ q l hlocate⟩)
      | file id => exact Or.inl (a.furnishes.files l id hl)
    · exact Or.inr h

end Disk

namespace MetricFile

open Disk (Numbered Gains Furnishes)

theorem acquire_ok {p : Path} {d d' : Disk} {file : MetricFile} (h : acquire p d = (.ok file, d')) :
    file.path = p ∧ ∃ e id, d.Paves p.parent e ∧ e.acquire p true = .ok (id, d') := by
  have hpaves := d.ensureFolder_paves p.parent
  unfold acquire at h
  rcases hf : d.ensureFolder p.parent with ⟨_ | _, e⟩
  · simp [hf] at h
  · rw [hf] at hpaves
    rcases hd : e.acquire p true with f | ⟨id, d''⟩
    · simp [hf, hd] at h
    · simp only [hf, hd, Prod.mk.injEq, Except.ok.injEq] at h
      obtain ⟨rfl, rfl⟩ := h
      exact ⟨rfl, e, id, hpaves, hd⟩

theorem acquire_error {p : Path} {d d' : Disk} {f : Fault} (h : acquire p d = (.error f, d')) :
    d.Paves p.parent d' := by
  have hpaves := d.ensureFolder_paves p.parent
  unfold acquire at h
  rcases hf : d.ensureFolder p.parent with ⟨_ | _, e⟩
  · simp only [hf, Prod.mk.injEq] at h
    rw [hf, h.2] at hpaves
    exact hpaves
  · rw [hf] at hpaves
    rcases hd : e.acquire p true with g | ⟨id, d''⟩
    · simp only [hf, hd, Prod.mk.injEq] at h
      rw [h.2] at hpaves
      exact hpaves
    · simp [hf, hd] at h

theorem acquire_gains (p : Path) {d : Disk} (numbered : d.Numbered) :
    d.Gains p (acquire p d).2 := by
  rcases h : acquire p d with ⟨_ | file, d'⟩
  · exact (acquire_error h).gains
  · obtain ⟨-, e, id, hpaves, hacquire⟩ := acquire_ok h
    exact .after hpaves (Disk.acquire_gains (hpaves.furnishes.numbered numbered) hacquire)

theorem acquire_numbered (p : Path) {d : Disk} (numbered : d.Numbered) :
    (acquire p d).2.Numbered := by
  rcases h : acquire p d with ⟨_ | file, d'⟩
  · exact (acquire_error h).furnishes.numbered numbered
  · obtain ⟨-, e, id, hpaves, hacquire⟩ := acquire_ok h
    exact Disk.acquire_numbered (hpaves.furnishes.numbered numbered) hacquire

end MetricFile

end HostTelemetry
