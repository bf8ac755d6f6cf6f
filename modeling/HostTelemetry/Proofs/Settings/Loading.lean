import HostTelemetry.Proofs.Disk.Opening
import HostTelemetry.Proofs.Outcome
import HostTelemetry.Proofs.Settings.Layer
import HostTelemetry.Proofs.Text.Stream
import HostTelemetry.Settings.File

/-!
# What a settings file is refused for

Loading a file fails as settings, unless a fault comes that nothing looks for: the path has no name
for the system, the loader fails with a fault that is none of documents, or the layer leaks. Each of
these faults leaves as it is. Bytes that spell no text are never loaded, and if there are few of
them, the loader meets their fault.
-/

set_option autoImplicit false

namespace HostTelemetry.Settings

open TextStream (unifiedLines)

/-- Files are asked of the system, which fails with its own faults or refuses the path. -/
def Reading.Asks (read : Reading) : Prop := ∀ p f, read p = .error f → Disk.Blames p f

theorem disk_asks (d : Disk) : Reading.Asks d.read := fun _ _ => Disk.read_blames

structure Holds (p : Path) (read : Reading) (bs : Bytes) (t : Text) : Prop where
  given : read p = .ok bs
  spelled : Utf8.Spells t bs

/-- What leaves the loading of a file as it is. -/
inductive Leaks (loader : Yaml.Loader) (p : Path) (read : Reading) : Fault → Prop
  | path {f : Fault} (failed : read p = .error f) (refused : p.fileNames? = .error f) :
      Leaks loader p read f
  | document {bs : Bytes} {f : Fault} (given : read p = .ok bs)
      (failed : loader.load (.ofPieces (loader.pieces bs)) = .error f) (strange : f ≠ .yaml)
      (inner : f.isSystem = false) : Leaks loader p read f
  | layer {bs : Bytes} {t : Text} {kvs : List (Value × Value)} {f : Fault}
      (holds : Holds p read bs t)
      (document : loader.load ⟨unifiedLines t, none⟩ = .ok (.entries kvs))
      (leaks : LayerLeaks kvs f) : Leaks loader p read f

def Explained (loader : Yaml.Loader) (p : Path) (read : Reading) (e : Failure) : Prop :=
  e.kind = .settings ∨ ∃ f, e = .passed f ∧ Leaks loader p read f

theorem refusal_passed {f : Fault} (p : Path) (strange : f ≠ .yaml) (inner : f.isSystem = false) :
    refusal p f = .passed f := by
  rw [refusal, inner, if_neg strange]
  rfl

theorem refusal_cases (p : Path) (f : Fault) :
    (refusal p f).kind = .settings ∨
      f ≠ .yaml ∧ f.isSystem = false ∧ refusal p f = .passed f := by
  cases hsystem : f.isSystem with
  | true =>
    rw [refusal, hsystem]
    exact Or.inl rfl
  | false =>
    by_cases hyaml : f = .yaml
    · rw [refusal, hsystem, if_pos hyaml]
      exact Or.inl rfl
    · exact Or.inr ⟨hyaml, rfl, refusal_passed p hyaml hsystem⟩

section

variable {loader : Yaml.Loader} {p : Path} {read : Reading} {f : Fault} {e : Failure}

/-- Reading in pieces loses nothing: a document is loaded from the text that the bytes spell. -/
theorem load_pieces_iff (lawful : loader.Lawful) {bs : Bytes} {d : Yaml.Document} :
    loader.load (.ofPieces (loader.pieces bs)) = .ok d ↔
      ∃ t, Utf8.Spells t bs ∧ loader.load ⟨unifiedLines t, none⟩ = .ok d := by
  have hflatten := lawful.pieces_flatten bs
  constructor
  · intro h
    obtain ⟨t, ht⟩ := TextStream.exists_spelled (lawful.load_whole _ d h)
    rw [TextStream.ofPieces_whole ht] at h
    rw [hflatten] at ht
    exact ⟨t, ht, h⟩
  · rintro ⟨t, ht, h⟩
    rw [← hflatten] at ht
    rwa [TextStream.ofPieces_whole ht]

theorem documentOf_eq_ok_iff (lawful : loader.Lawful) {d : Yaml.Document} :
    documentOf loader p read = .ok d ↔
      ∃ bs t, Holds p read bs t ∧ loader.load ⟨unifiedLines t, none⟩ = .ok d := by
  constructor
  · intro h
    unfold documentOf at h
    rcases hread : read p with f | bs
    · rw [hread] at h
      cases h
    · rw [hread] at h
      rcases hload : loader.load (.ofPieces (loader.pieces bs)) with f | d'
      · simp only [bind, Except.bind, hload, Except.mapError] at h
        cases h
      · simp only [bind, Except.bind, hload, Except.mapError] at h
        obtain rfl := Except.ok.inj h
        obtain ⟨t, ht, hdocument⟩ := (load_pieces_iff lawful).1 hload
        exact ⟨bs, t, ⟨hread, ht⟩, hdocument⟩
  · rintro ⟨bs, t, ⟨hread, ht⟩, hdocument⟩
    have hload := (load_pieces_iff lawful).2 ⟨t, ht, hdocument⟩
    simp only [documentOf, hread, bind, Except.bind, hload]
    rfl

theorem documentOf_error (asks : read.Asks) (h : documentOf loader p read = .error e) :
    Explained loader p read e := by
  unfold documentOf at h
  rcases hread : read p with f | bs
  · rw [hread] at h
    obtain rfl : refusal p f = e := Except.error.inj h
    refine (refusal_cases p f).imp_right fun ⟨_, hinner, hpassed⟩ => ⟨f, hpassed, ?_⟩
    exact .path hread ((asks p f hread).refused hinner)
  · rw [hread] at h
    rcases hload : loader.load (.ofPieces (loader.pieces bs)) with f | d
    · simp only [bind, Except.bind, hload, Except.mapError] at h
      obtain rfl := Except.error.inj h
      exact (refusal_cases p f).imp_right fun ⟨hstrange, hinner, hpassed⟩ =>
        ⟨f, hpassed, .document hread hload hstrange hinner⟩
    · simp only [bind, Except.bind, hload, Except.mapError] at h
      cases h

theorem entriesOf_eq_ok (lawful : loader.Lawful) {r : Option (List (Value × Value))}
    (h : entriesOf loader p read = .ok r) :
    ∃ bs t d, Holds p read bs t ∧ loader.load ⟨unifiedLines t, none⟩ = .ok d ∧
      d = match r with
        | none => .nothing
        | some kvs => .entries kvs := by
  rcases hdocument : documentOf loader p read with e | d
  · rw [entriesOf, hdocument] at h
    cases h
  · obtain ⟨bs, t, holds, hload⟩ := (documentOf_eq_ok_iff lawful).1 hdocument
    refine ⟨bs, t, d, holds, hload, ?_⟩
    rw [entriesOf, hdocument] at h
    cases d with
    | other => cases h
    | nothing =>
      cases h
      rfl
    | entries kvs =>
      cases h
      rfl

theorem entriesOf_error (asks : read.Asks) (h : entriesOf loader p read = .error e) :
    Explained loader p read e := by
  rcases hdocument : documentOf loader p read with e' | d
  · rw [entriesOf, hdocument] at h
    obtain rfl : e' = e := Except.error.inj h
    exact documentOf_error asks hdocument
  · rw [entriesOf, hdocument] at h
    cases d with
    | other =>
      cases h
      exact Or.inl rfl
    | nothing => cases h
    | entries kvs => cases h

theorem load_error (lawful : loader.Lawful) (asks : read.Asks)
    (h : load loader (some p) read = .error e) : Explained loader p read e := by
  unfold load at h
  dsimp only at h
  rcases hentries : entriesOf loader p read with e' | _ | kvs
  · rw [hentries] at h
    obtain rfl : e' = e := Except.error.inj h
    exact entriesOf_error asks hentries
  · rw [hentries] at h
    cases h
  · rw [hentries] at h
    dsimp only [bind, Except.bind] at h
    split at h
    · rename_i e' hchanges
      cases h
      obtain ⟨bs, t, _, hholds, hload, rfl⟩ := entriesOf_eq_ok lawful hentries
      exact (changesOf_error hchanges).imp_right fun ⟨f, hf, hleaks⟩ =>
        ⟨f, hf, .layer hholds hload hleaks⟩
    · cases h

theorem load_of_document (h : documentOf loader p read = .error e) :
    load loader (some p) read = .error e := by
  simp only [load, entriesOf, h]
  rfl

theorem Leaks.load (lawful : loader.Lawful) (h : Leaks loader p read f) :
    Settings.load loader (some p) read = .error (.passed f) ∧ f.kind ≠ .settings := by
  cases h with
  | path failed refused =>
    obtain ⟨hsystem, hvalue⟩ := Path.refusal_isValue refused
    have hstrange : f ≠ .yaml := by
      rintro rfl
      cases hvalue
    constructor
    · apply load_of_document
      rw [documentOf, failed, ← refusal_passed p hstrange hsystem]
      rfl
    · intro hkind
      rw [Fault.isValue, hkind] at hvalue
      cases hvalue
  | document given failed strange inner =>
    constructor
    · apply load_of_document
      simp only [documentOf, given, bind, Except.bind, failed, Except.mapError]
      rw [refusal_passed p strange inner]
    · exact lawful.load_kind _ f failed
  | layer holds document leaks =>
    obtain ⟨hchanges, hsettings⟩ := leaks.changesOf
    have hdocument := (documentOf_eq_ok_iff lawful).2 ⟨_, _, holds, document⟩
    refine ⟨?_, hsettings⟩
    simp only [Settings.load, entriesOf, hdocument, bind, Except.bind, hchanges]

theorem not_load_of_unspelled (lawful : loader.Lawful) {bs : Bytes} (given : read p = .ok bs)
    (unspelled : ∀ t, ¬Utf8.Spells t bs) (s : Settings) : load loader (some p) read ≠ .ok s := by
  intro h
  obtain ⟨r, hentries, -⟩ := bind_eq_ok h
  obtain ⟨bs', t, -, ⟨hread, ht⟩, -, -⟩ := entriesOf_eq_ok lawful hentries
  obtain rfl : bs = bs' := Except.ok.inj (given.symm.trans hread)
  exact unspelled t ht

theorem Leaks.of_unspelled (lawful : loader.Lawful) {bs : Bytes} (given : read p = .ok bs)
    (unspelled : ∀ t, ¬Utf8.Spells t bs) (short : bs.length < Yaml.partSize) :
    ∃ u, Leaks loader p read (.unreadable u) := by
  have hflatten := lawful.pieces_flatten bs
  have hlength := TextStream.ofPieces_length (loader.pieces bs)
  rw [hflatten] at hlength
  rcases hs : TextStream.ofPieces (loader.pieces bs) with ⟨t, _ | u⟩
  · obtain ⟨t, ht⟩ := TextStream.exists_spelled (congrArg TextStream.fault hs)
    rw [hflatten] at ht
    exact absurd ht (unspelled t)
  · rw [hs] at hlength
    have hfailed := lawful.load_unread t u (Nat.lt_of_le_of_lt hlength short)
    rw [← hs] at hfailed
    exact ⟨u, .document given hfailed nofun rfl⟩

end

end HostTelemetry.Settings
