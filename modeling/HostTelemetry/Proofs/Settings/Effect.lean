import HostTelemetry.Proofs.Outcome
import HostTelemetry.Proofs.Settings.Loading

/-!
# What layers of settings come to

A value means a change of the setting under its key, or nothing. A layer is accepted if all of its
keys are known and all of its values mean something, and then each setting is what the last value
under its key means, or what it was before.
-/

set_option autoImplicit false

namespace HostTelemetry.Settings

inductive NamesPath : Value → Path → Prop
  | text {t : Text} (visible : Text.trim t ≠ []) : NamesPath (.text t) (Path.ofText t)
  | path {p : Path} (visible : Text.trim p.toText ≠ []) : NamesPath (.path p) p

/-- What a value means under a key. -/
inductive Means : Key → Value → Change → Prop
  | append (b : Bool) : Means .append (.bool b) (.append b)
  | clamp (b : Bool) : Means .clamp (.bool b) (.clamp b)
  | outputPath {v : Value} {p : Path} (path : NamesPath v p) : Means .outputPath v (.outputPath p)
  | metricsPath {v : Value} {p : Path} (path : NamesPath v p) :
      Means .metricsPath v (.metricsPath (some p))
  | noMetricsPath : Means .metricsPath .none (.metricsPath none)
  | logLevel {v : Value} {t : Text} {l : LevelName} (text : v.plain = .ok t)
      (name : LevelName.ofText? (Text.capitals (Text.trim t)) = some l) :
      Means .logLevel v (.logLevel l)

theorem refusal_ne_ok {α β : Type} (x : Except Failure α) (f : α → Failure) (b : β) :
    (x >>= fun a => .error (f a)) ≠ .ok b := by
  cases x <;> exact nofun

theorem truthOf_eq_ok {key : Key} {v : Value} {b : Bool} :
    truthOf key v = .ok b ↔ v = .bool b := by
  cases v with
  | bool c => simp [truthOf, pure, Except.pure]
  | _ => exact iff_of_false (refusal_ne_ok _ _ _) nofun

theorem pathOf_eq_ok {key : Key} {v : Value} {p : Path} :
    pathOf key v = .ok p ↔ NamesPath v p := by
  cases v with
  | text t =>
    rw [pathOf]
    split
    · rename_i hblank
      refine iff_of_false (refusal_ne_ok _ _ _) fun h => ?_
      cases h with
      | text visible => exact visible (List.isEmpty_iff.1 hblank)
    · rename_i hvisible
      constructor
      · intro h
        cases h
        exact .text (mt List.isEmpty_iff.2 hvisible)
      · rintro ⟨⟩
        rfl
  | path q =>
    rw [pathOf]
    split
    · rename_i hblank
      refine iff_of_false (refusal_ne_ok _ _ _) fun h => ?_
      cases h with
      | path visible => exact visible (List.isEmpty_iff.1 hblank)
    · rename_i hvisible
      constructor
      · intro h
        cases h
        exact .path (mt List.isEmpty_iff.2 hvisible)
      · rintro ⟨⟩
        rfl
  | _ => exact iff_of_false (refusal_ne_ok _ _ _) (by rintro ⟨⟩)

theorem levelOf_eq_ok {v : Value} {l : LevelName} :
    levelOf v = .ok l ↔
      ∃ t, v.plain = .ok t ∧ LevelName.ofText? (Text.capitals (Text.trim t)) = some l := by
  unfold levelOf
  rcases v.plain with f | t
  · exact iff_of_false nofun (by rintro ⟨t, h, -⟩; cases h)
  · dsimp only
    rcases hlevel : LevelName.ofText? (Text.capitals (Text.trim t)) with _ | l'
    · refine iff_of_false (refusal_ne_ok _ _ _) ?_
      rintro ⟨t', ht, hl⟩
      cases ht
      rw [hlevel] at hl
      cases hl
    · constructor
      · intro h
        cases h
        exact ⟨t, rfl, hlevel⟩
      · rintro ⟨t', ht, hl⟩
        cases ht
        rw [hlevel] at hl
        cases hl
        rfl

theorem check_eq_ok_iff {key : Key} {v : Value} {c : Change} :
    check key v = .ok c ↔ Means key v c := by
  cases key with
  | append =>
    simp only [check, map_eq_ok, truthOf_eq_ok]
    constructor
    · rintro ⟨b, rfl, rfl⟩
      exact .append b
    · rintro ⟨⟩
      exact ⟨_, rfl, rfl⟩
  | clamp =>
    simp only [check, map_eq_ok, truthOf_eq_ok]
    constructor
    · rintro ⟨b, rfl, rfl⟩
      exact .clamp b
    · rintro ⟨⟩
      exact ⟨_, rfl, rfl⟩
  | outputPath =>
    simp only [check, map_eq_ok, pathOf_eq_ok]
    constructor
    · rintro ⟨p, hp, rfl⟩
      exact .outputPath hp
    · intro h
      cases h with
      | outputPath path => exact ⟨_, path, rfl⟩
  | metricsPath =>
    by_cases hv : v = .none
    · subst hv
      constructor
      · intro h
        cases h
        exact .noMetricsPath
      · intro h
        cases h with
        | metricsPath path => cases path
        | noMetricsPath => rfl
    · have hcheck : check .metricsPath v = (pathOf .metricsPath v).map (.metricsPath ∘ some) := by
        cases v with
        | none => exact absurd rfl hv
        | _ => rfl
      simp only [hcheck, map_eq_ok, pathOf_eq_ok]
      constructor
      · rintro ⟨p, hp, rfl⟩
        exact .metricsPath hp
      · intro h
        cases h with
        | metricsPath path => exact ⟨_, path, rfl⟩
        | noMetricsPath => exact absurd rfl hv
  | logLevel =>
    simp only [check, map_eq_ok, levelOf_eq_ok]
    constructor
    · rintro ⟨l, ⟨t, ht, hl⟩, rfl⟩
      exact .logLevel ht hl
    · intro h
      cases h with
      | logLevel text name => exact ⟨_, ⟨_, text, name⟩, rfl⟩

theorem Means.unique {key : Key} {v : Value} {c c' : Change} (h : Means key v c)
    (h' : Means key v c') : c = c' :=
  Except.ok.inj ((check_eq_ok_iff.2 h).symm.trans (check_eq_ok_iff.2 h'))

/-- Only the metrics path can be set to nothing. -/
theorem means_none_iff {key : Key} {c : Change} :
    Means key .none c ↔ key = .metricsPath ∧ c = .metricsPath none := by
  constructor
  · intro h
    cases h with
    | outputPath path => cases path
    | metricsPath path => cases path
    | noMetricsPath => exact ⟨rfl, rfl⟩
    | logLevel text name =>
      have hplain : Value.plain .none = .ok (lit "None") := by simp [Value.plain, Value.shown]
      rw [hplain] at text
      obtain rfl := Except.ok.inj text
      have hnone : LevelName.ofText? (Text.capitals (Text.trim (lit "None"))) = none := by decide
      rw [hnone] at name
      cases name
  · rintro ⟨rfl, rfl⟩
    exact .noMetricsPath

def Change.key : Change → Key
  | .outputPath _ => .outputPath
  | .append _ => .append
  | .clamp _ => .clamp
  | .metricsPath _ => .metricsPath
  | .logLevel _ => .logLevel

theorem Means.key_eq {key : Key} {v : Value} {c : Change} (h : Means key v c) : c.key = key := by
  cases h <;> rfl

/-- The setting under a key, as the change that makes it so. -/
def part (s : Settings) : Key → Change
  | .outputPath => .outputPath s.outputPath
  | .append => .append s.append
  | .clamp => .clamp s.clamp
  | .metricsPath => .metricsPath s.metricsPath
  | .logLevel => .logLevel s.logLevel

theorem part_change (s : Settings) (c : Change) (key : Key) :
    (s.change c).part key = if c.key = key then c else s.part key := by
  cases c <;> cases key <;> rfl

theorem ext_part {s s' : Settings} (h : ∀ key, s.part key = s'.part key) : s = s' := by
  obtain ⟨o, a, c, m, l⟩ := s
  obtain ⟨o', a', c', m', l'⟩ := s'
  obtain rfl : o = o' := Change.outputPath.inj (h .outputPath)
  obtain rfl : a = a' := Change.append.inj (h .append)
  obtain rfl : c = c' := Change.clamp.inj (h .clamp)
  obtain rfl : m = m' := Change.metricsPath.inj (h .metricsPath)
  obtain rfl : l = l' := Change.logLevel.inj (h .logLevel)
  rfl

def valueUnder (key : Key) : List (Key × Value) → Option Value
  | [] => none
  | e :: es => (valueUnder key es).or (if e.1 = key then some e.2 else none)

def Sets (s s' : Settings) (key : Key) : Option Value → Prop
  | some v => Means key v (s'.part key)
  | none => s'.part key = s.part key

theorem Sets.unique {s s' s'' : Settings} {key : Key} {v? : Option Value} (h : Sets s s' key v?)
    (h' : Sets s s'' key v?) : s'.part key = s''.part key := by
  cases v? with
  | none =>
    have hsame : s'.part key = s.part key := h
    exact hsame.trans (Eq.symm h')
  | some v => exact Means.unique h h'

theorem Sets.over {s s' s'' : Settings} {key : Key} {upper lower : Option Value}
    (h : Sets s s' key lower) (h' : Sets s' s'' key upper) : Sets s s'' key (upper.or lower) := by
  cases upper with
  | none =>
    have hsame : s''.part key = s'.part key := h'
    cases lower with
    | none => exact hsame.trans h
    | some v =>
      show Means key v (s''.part key)
      rw [hsame]
      exact h
  | some v => exact h'

theorem changeAll_sets {es : List (Key × Value)} {cs : List Change} (key : Key)
    (h : List.Forall₂ (fun e c => Means e.1 e.2 c) es cs) (s : Settings) :
    Sets s (s.changeAll cs) key (valueUnder key es) := by
  induction h generalizing s with
  | nil => rfl
  | @cons e c es cs hmeans _ ih =>
    have hrest := ih (s.change c)
    have hkey := hmeans.key_eq
    show Sets s ((s.change c).changeAll cs) key _
    rw [valueUnder]
    rcases hlater : valueUnder key es with _ | v
    · rw [hlater] at hrest
      have hpart : ((s.change c).changeAll cs).part key = (s.change c).part key := hrest
      rw [part_change, hkey] at hpart
      rw [Option.none_or]
      split
      · rename_i hsame
        rw [if_pos hsame] at hpart
        subst hsame
        show Means e.1 e.2 (((s.change c).changeAll cs).part e.1)
        rw [hpart]
        exact hmeans
      · rename_i hother
        rw [if_neg hother] at hpart
        exact hpart
    · rw [hlater] at hrest
      exact hrest

theorem changesOf_eq_ok_iff {entries : List (Value × Value)} {cs : List Change} :
    changesOf entries = .ok cs ↔
      strangeKeys entries = [] ∧ List.Forall₂ (fun e c => Means e.1 e.2 c) (named entries) cs := by
  rcases hstrange : strangeKeys entries with _ | ⟨v, vs⟩
  · rw [changesOf_known hstrange, mapM_eq_ok_iff]
    simp only [check_eq_ok_iff, true_and]
  · rw [changesOf_strange hstrange]
    exact iff_of_false nofun nofun

def Accepted (entries : List (Value × Value)) : Prop :=
  ∀ e ∈ entries, ∃ key c, e.1 = .text (Key.toText key) ∧ Means key e.2 c

theorem ofValue?_eq_some_iff {v : Value} {key : Key} :
    Key.ofValue? v = some key ↔ v = .text key.toText := by
  constructor
  · intro h
    cases v with
    | text t =>
      have := List.find?_some h
      rw [beq_iff_eq] at this
      rw [this]
    | _ => cases h
  · rintro rfl
    cases key <;> rfl

theorem exists_forall₂ {α β : Type} {R : α → β → Prop} {xs : List α} :
    (∃ ys, List.Forall₂ R xs ys) ↔ ∀ x ∈ xs, ∃ y, R x y := by
  induction xs with
  | nil => exact iff_of_true ⟨[], .nil⟩ nofun
  | cons x xs ih =>
    rw [List.forall_mem_cons, ← ih]
    constructor
    · rintro ⟨_, _ | ⟨hx, hxs⟩⟩
      exact ⟨⟨_, hx⟩, _, hxs⟩
    · rintro ⟨⟨y, hx⟩, ys, hxs⟩
      exact ⟨y :: ys, .cons hx hxs⟩

theorem mem_named_iff {entries : List (Value × Value)} {e : Key × Value} :
    e ∈ named entries ↔ (.text e.1.toText, e.2) ∈ entries := by
  simp only [named, List.mem_filterMap, Option.map_eq_some_iff, ofValue?_eq_some_iff]
  constructor
  · rintro ⟨⟨k, v⟩, hmem, key, rfl, rfl⟩
    exact hmem
  · intro hmem
    exact ⟨_, hmem, e.1, rfl, rfl⟩

theorem strangeKeys_eq_nil_iff {entries : List (Value × Value)} :
    strangeKeys entries = [] ↔ ∀ e ∈ entries, ∃ key : Key, e.1 = .text key.toText := by
  simp only [strangeKeys, List.filter_eq_nil_iff, List.mem_map, forall_exists_index, and_imp,
    forall_apply_eq_imp_iff₂, Option.isNone_iff_eq_none, Option.eq_none_iff_forall_ne_some, Ne,
    ofValue?_eq_some_iff, not_forall, not_not]

theorem accepted_iff {entries : List (Value × Value)} :
    Accepted entries ↔ ∃ cs, changesOf entries = .ok cs := by
  simp only [changesOf_eq_ok_iff, exists_and_left, exists_forall₂, strangeKeys_eq_nil_iff]
  constructor
  · intro h
    refine ⟨fun e he => ?_, fun e he => ?_⟩
    · obtain ⟨key, c, hkey, -⟩ := h e he
      exact ⟨key, hkey⟩
    · obtain ⟨key, c, hkey, hmeans⟩ := h _ (mem_named_iff.1 he)
      have hsame : key = e.1 := by
        rw [← Option.some_inj, ← ofValue?_eq_some_iff.2 hkey, ofValue?_eq_some_iff]
      subst hsame
      exact ⟨c, hmeans⟩
  · rintro ⟨hknown, hmeant⟩ ⟨k, v⟩ he
    obtain ⟨key, rfl⟩ := hknown _ he
    obtain ⟨c, hmeans⟩ := hmeant (key, v) (mem_named_iff.2 he)
    exact ⟨key, c, rfl, hmeans⟩

/-- The layer of a file: the entries of its document. Without a file, or in a document that holds
nothing, there are none. -/
inductive FileLayer (loader : Yaml.Loader) (read : Reading) :
    Option Path → List (Value × Value) → Prop
  | noFile : FileLayer loader read none []
  | nothing {p : Path} {bs : Bytes} {t : Text} (holds : Holds p read bs t)
      (document : loader.load ⟨TextStream.unifiedLines t, none⟩ = .ok .nothing) :
      FileLayer loader read (some p) []
  | entries {p : Path} {bs : Bytes} {t : Text} {kvs : List (Value × Value)}
      (holds : Holds p read bs t)
      (document : loader.load ⟨TextStream.unifiedLines t, none⟩ = .ok (.entries kvs)) :
      FileLayer loader read (some p) kvs

section

variable {loader : Yaml.Loader} {read : Reading} {p : Path}

theorem fileLayer_some_iff (lawful : loader.Lawful) {layer : List (Value × Value)} :
    FileLayer loader read (some p) layer ↔
      ∃ r, entriesOf loader p read = .ok r ∧ r.getD [] = layer := by
  constructor
  · intro h
    cases h with
    | nothing holds document =>
      refine ⟨none, ?_, rfl⟩
      rw [entriesOf, (documentOf_eq_ok_iff lawful).2 ⟨_, _, holds, document⟩]
      rfl
    | entries holds document =>
      refine ⟨some layer, ?_, rfl⟩
      rw [entriesOf, (documentOf_eq_ok_iff lawful).2 ⟨_, _, holds, document⟩]
      rfl
  · rintro ⟨r, hentries, rfl⟩
    obtain ⟨bs, t, _, holds, document, rfl⟩ := entriesOf_eq_ok lawful hentries
    cases r with
    | none => exact .nothing holds document
    | some kvs => exact .entries holds document

theorem load_some (loader : Yaml.Loader) (p : Path) (read : Reading) :
    load loader (some p) read =
      (entriesOf loader p read).bind fun r => (changesOf (r.getD [])).map default.changeAll := by
  rw [load]
  rcases entriesOf loader p read with e | _ | kvs
  · rfl
  · rfl
  · show (changesOf kvs >>= fun cs => pure (default.changeAll cs)) = (changesOf kvs).map _
    cases changesOf kvs <;> rfl

theorem load_eq_ok_iff (lawful : loader.Lawful) {file : Option Path} {s : Settings} :
    load loader file read = .ok s ↔
      ∃ layer cs, FileLayer loader read file layer ∧ changesOf layer = .ok cs ∧
        default.changeAll cs = s := by
  rcases file with _ | p
  · constructor
    · intro h
      exact ⟨[], [], .noFile, rfl, Except.ok.inj h⟩
    · rintro ⟨_, cs, ⟨⟩, hcs, rfl⟩
      cases hcs
      rfl
  · rw [load_some]
    simp only [fileLayer_some_iff lawful]
    rcases entriesOf loader p read with e | r
    · refine iff_of_false nofun ?_
      rintro ⟨layer, cs, ⟨r, h, -⟩, -⟩
      cases h
    · show (changesOf (r.getD [])).map _ = .ok s ↔ _
      rw [map_eq_ok]
      constructor
      · rintro ⟨cs, hcs, hs⟩
        exact ⟨_, cs, ⟨r, rfl, rfl⟩, hcs, hs⟩
      · rintro ⟨layer, cs, ⟨r', h, rfl⟩, hcs, hs⟩
        cases h
        exact ⟨cs, hcs, hs⟩

end

end HostTelemetry.Settings
