import HostTelemetry.Metric.File
import Mathlib.Data.List.Infix
import Mathlib.Data.List.TakeWhile

/-!
# Why a file cannot be opened

The file system fails with a fault of the system, unless the path cannot be handed to it at all:
a name in it holds a zero or a surrogate that stands for no byte.
-/

set_option autoImplicit false

namespace HostTelemetry

namespace Text

theorem mem_join {c : CodePoint} {t : Text} (sep : Text) {ts : List Text} (ht : t ∈ ts)
    (hc : c ∈ t) : c ∈ join sep ts := by
  fun_induction join sep ts with
  | case1 => cases ht
  | case2 u =>
    obtain rfl := List.mem_singleton.1 ht
    exact hc
  | case3 u v ts ih =>
    rw [List.append_assoc]
    obtain rfl | ht := List.mem_cons.1 ht
    · exact List.mem_append_left _ hc
    · exact List.mem_append_right _ (List.mem_append_right _ (ih ht))

theorem of_mem_join {c : CodePoint} {sep : Text} {ts : List Text} (h : c ∈ join sep ts) :
    c ∈ sep ∨ ∃ t ∈ ts, c ∈ t := by
  fun_induction join sep ts with
  | case1 => cases h
  | case2 u => exact Or.inr ⟨u, List.mem_cons_self .., h⟩
  | case3 u v ts ih =>
    rw [List.append_assoc] at h
    obtain h | h := List.mem_append.1 h
    · exact Or.inr ⟨u, List.mem_cons_self .., h⟩
    · obtain h | h := List.mem_append.1 h
      · exact Or.inl h
      · exact (ih h).imp_right fun ⟨t, ht, hc⟩ => ⟨t, List.mem_cons_of_mem _ ht, hc⟩

end Text

namespace Path

theorem of_mem_toText {c : CodePoint} {p : Path} (h : c ∈ p.toText) :
    c = cp '/' ∨ c = cp '.' ∨ ∃ n ∈ p.names, c ∈ n := by
  unfold toText at h
  dsimp only at h
  split at h
  · exact Or.inr (Or.inl (List.mem_singleton.1 h))
  · obtain h | h := List.mem_append.1 h
    · exact Or.inl (List.eq_of_mem_replicate h)
    · obtain h | h := Text.of_mem_join h
      · exact Or.inl (List.mem_singleton.1 h)
      · exact Or.inr (Or.inr h)

theorem mem_toText {c : CodePoint} {n : Text} {p : Path} (hn : n ∈ p.names) (hc : c ∈ n) :
    c ∈ p.toText := by
  have hmem : c ∈ List.replicate p.slashes (cp '/') ++ Text.join [cp '/'] p.names :=
    List.mem_append_right _ (Text.mem_join [cp '/'] hn hc)
  unfold toText
  dsimp only
  rw [if_neg]
  · exact hmem
  · rw [List.isEmpty_iff]
    exact List.ne_nil_of_mem hmem

/-- No name of a path holds what the system takes for no part of a name. -/
def Nameable (p : Path) : Prop := ∀ n ∈ p.names, ∀ c ∈ n, isStray c = false ∧ c ≠ 0

theorem Nameable.parent {p : Path} (h : p.Nameable) : p.parent.Nameable :=
  fun n hn => h n (List.mem_of_mem_dropLast hn)

theorem nameable_iff_text (p : Path) :
    p.Nameable ↔ ∀ c ∈ p.toText, isStray c = false ∧ c ≠ 0 := by
  constructor
  · intro h c hc
    obtain rfl | rfl | ⟨n, hn, hc⟩ := of_mem_toText hc
    · decide
    · decide
    · exact h n hn c hc
  · exact fun h n hn c hc => h c (mem_toText hn hc)

theorem fileNames?_cases (p : Path) :
    p.Nameable ∧ (∃ names, p.fileNames? = .ok names) ∨
      ¬p.Nameable ∧ ∃ f, p.fileNames? = .error f ∧ f.isSystem = false ∧ f.isValue := by
  rw [nameable_iff_text, fileNames?]
  dsimp only
  split
  · rename_i c rest hdrop
    refine Or.inr ⟨?_, _, rfl, rfl, rfl⟩
    intro h
    have hnil : (p.toText.dropWhile fun c => !isStray c) = [] :=
      List.dropWhile_eq_nil_iff.2 fun c hc => by simp [(h c hc).1]
    rw [hdrop] at hnil
    cases hnil
  · rename_i hdrop
    have hplain : ∀ c ∈ p.toText, isStray c = false := fun c hc => by
      simpa using List.dropWhile_eq_nil_iff.1 hdrop c hc
    split
    · rename_i hzero
      exact Or.inr ⟨fun h => (h 0 hzero).2 rfl, _, rfl, rfl, rfl⟩
    · rename_i hzero
      refine Or.inl ⟨fun c hc => ⟨hplain c hc, ?_⟩, _, rfl⟩
      rintro rfl
      exact hzero hc

theorem Nameable.fileNames? {p : Path} (h : p.Nameable) : ∃ names, p.fileNames? = .ok names := by
  obtain ⟨-, hok⟩ | ⟨hno, -⟩ := p.fileNames?_cases
  · exact hok
  · exact absurd h hno

theorem nameable_of_fileNames? {p : Path} {names : List FileName} (h : p.fileNames? = .ok names) :
    p.Nameable := by
  obtain ⟨hp, -⟩ | ⟨-, f, hf, -⟩ := p.fileNames?_cases
  · exact hp
  · rw [h] at hf
    cases hf

theorem refusal_isValue {p : Path} {f : Fault} (h : p.fileNames? = .error f) :
    f.isSystem = false ∧ f.isValue := by
  obtain ⟨-, names, hok⟩ | ⟨-, g, hg, hkind⟩ := p.fileNames?_cases
  · rw [h] at hok
    cases hok
  · rw [h] at hg
    obtain rfl := Except.error.inj hg
    exact hkind

end Path

namespace Disk

/-- A fault of the system on a path that it takes, or the one with which it refuses the path. -/
def Blames (p : Path) (f : Fault) : Prop :=
  p.Nameable ∧ f.isSystem ∨ p.fileNames? = .error f

theorem Blames.of_nameable {p : Path} {f : Fault} (h : Blames p f) (hp : p.Nameable) :
    f.isSystem := by
  obtain h | h := h
  · exact h.2
  · obtain ⟨names, hnames⟩ := hp.fileNames?
    rw [h] at hnames
    cases hnames

theorem Blames.nameable {p : Path} {f : Fault} (h : Blames p f) (hf : f.isSystem) :
    p.Nameable := by
  obtain h | h := h
  · exact h.1
  · rw [(Path.refusal_isValue h).1] at hf
    cases hf

theorem Blames.refused {p : Path} {f : Fault} (h : Blames p f) (hf : f.isSystem = false) :
    p.fileNames? = .error f := by
  obtain h | h := h
  · rw [h.2] at hf
    cases hf
  · exact h

theorem locate_blames {d : Disk} {p : Path} {f : Fault} (h : d.locate p = .error f) :
    Blames p f := by
  unfold locate at h
  rcases hn : p.fileNames? with g | names
  · simp only [hn, bind, Except.bind] at h
    exact Or.inr (hn.trans h)
  · have hp := Path.nameable_of_fileNames? hn
    simp only [hn, bind, Except.bind] at h
    split at h
    · cases h
      exact Or.inl ⟨hp, rfl⟩
    · split at h
      · cases h
        exact Or.inl ⟨hp, rfl⟩
      · cases h

theorem nameable_of_locate {d : Disk} {p : Path} {l : Location} (h : d.locate p = .ok l) :
    p.Nameable := by
  unfold locate at h
  rcases hn : p.fileNames? with g | names
  · simp only [hn, bind, Except.bind] at h
    cases h
  · exact Path.nameable_of_fileNames? hn

theorem acquire_blames {d : Disk} {p : Path} {keep : Bool} {f : Fault}
    (h : d.acquire p keep = .error f) : Blames p f := by
  unfold acquire at h
  rcases hl : d.locate p with g | l
  · simp only [hl, bind, Except.bind] at h
    cases h
    exact locate_blames hl
  · have hp := nameable_of_locate hl
    simp only [hl, bind, Except.bind] at h
    split at h
    · cases h
      exact Or.inl ⟨hp, rfl⟩
    · cases h
    · cases h

theorem read_blames {d : Disk} {p : Path} {f : Fault} (h : d.read p = .error f) : Blames p f := by
  unfold read at h
  rcases hl : d.locate p with g | l
  · simp only [hl, bind, Except.bind] at h
    cases h
    exact locate_blames hl
  · have hp := nameable_of_locate hl
    simp only [hl, bind, Except.bind] at h
    split at h
    · cases h
      exact Or.inl ⟨hp, rfl⟩
    · cases h
      exact Or.inl ⟨hp, rfl⟩
    · cases h

theorem makeFolder_blames {d : Disk} {p : Path} {f : Fault} (h : d.makeFolder p = .error f) :
    Blames p f := by
  unfold makeFolder at h
  rcases hl : d.locate p with g | l
  · simp only [hl, bind, Except.bind] at h
    cases h
    exact locate_blames hl
  · have hp := nameable_of_locate hl
    simp only [hl, bind, Except.bind] at h
    split at h
    · cases h
      exact Or.inl ⟨hp, rfl⟩
    · cases h

theorem isFolder_blames {d : Disk} {p : Path} {f : Fault} (h : d.isFolder p = .error f) :
    Blames p f := by
  unfold isFolder at h
  split at h
  · cases h
  · rename_i code file hlocate
    split at h
    · cases h
    · cases h
      exact locate_blames hlocate
  · cases h

theorem ensureLast_blames {d d' : Disk} {p : Path} {f : Fault}
    (h : d.ensureLast p = (.error f, d')) : Blames p f := by
  unfold ensureLast at h
  split at h
  · cases h
  · rename_i g hmake
    have hg := makeFolder_blames hmake
    split at h
    · split at h
      · cases h
      · cases h
        exact hg
      · rename_i hfolder
        cases h
        exact isFolder_blames hfolder
    · cases h
      exact hg

theorem ensureFolder_blames {d d' : Disk} {p : Path} {f : Fault}
    (h : d.ensureFolder p = (.error f, d')) : Blames p f := by
  fun_induction ensureFolder d p with
  | case1 d p d'' u hlast => cases h
  | case2 d p g d'' hlast hk u e hu ih => exact ensureLast_blames h
  | case3 d p g d'' hlast hk k e hg ih =>
    cases h
    -- The system has looked for the path, so it takes the one above, too.
    have hlooked : g.isSystem := by simp [Fault.isSystem, hk.1]
    have hp := (ensureLast_blames hlast).nameable hlooked
    exact Or.inl ⟨hp, (ih hg).of_nameable hp.parent⟩
  | case4 d p g d'' hlast hk =>
    cases h
    exact ensureLast_blames hlast

end Disk

namespace MetricFile

theorem acquire_blames {d d' : Disk} {p : Path} {f : Fault}
    (h : acquire p d = (.error f, d')) :
    Disk.Blames p.parent f ∨ Disk.Blames p f := by
  unfold acquire at h
  split at h
  · rename_i hfolder
    cases h
    exact Or.inl (Disk.ensureFolder_blames hfolder)
  · split at h
    · rename_i hopen
      cases h
      exact Or.inr (Disk.acquire_blames hopen)
    · cases h

end MetricFile

end HostTelemetry
