import HostTelemetry.Log.Root
import HostTelemetry.Proofs.Settings.Overrides

/-!
# Settings that are accepted again

Settings come from the defaults or a file, and from sets of overrides. Overridden with their own
values they stay what they are, unless a text that names a path fades: it is not blank itself, but
the path that is made of it is.
-/

set_option autoImplicit false

namespace HostTelemetry

namespace Text

theorem trim_eq_nil_iff {t : Text} : trim t = [] ↔ ∀ c ∈ t, isBlank c = true := by
  rw [trim, trimEnd, List.reverse_eq_nil_iff, List.dropWhile_eq_nil_iff, trimStart]
  simp only [List.mem_reverse]
  constructor
  · intro h
    rw [← List.dropWhile_eq_nil_iff]
    by_contra hne
    have hhead := List.head_dropWhile_not isBlank hne
    rw [h _ (List.head_mem hne)] at hhead
    cases hhead
  · exact fun h c hc => h c (List.dropWhile_subset _ hc)

theorem isBlank_slash : isBlank (cp '/') = false := by decide

theorem trim_ne_nil_of_slash {t : Text} (h : cp '/' ∈ t) : trim t ≠ [] := by
  intro hblank
  have hslash := trim_eq_nil_iff.1 hblank _ h
  rw [isBlank_slash] at hslash
  cases hslash

end Text

namespace Path

theorem trim_toText_eq_nil_iff {p : Path} (names : ∀ n ∈ p.names, n ≠ []) :
    Text.trim p.toText = [] ↔ ∃ n, p = ⟨0, [n]⟩ ∧ Text.trim n = [] := by
  obtain ⟨slashes, ns⟩ := p
  have hslash : ∀ t : Text, cp '/' ∈ t → (if t.isEmpty then lit "." else t) = t := by
    intro t ht
    rw [if_neg (by simpa using List.ne_nil_of_mem ht)]
  rw [toText]
  dsimp only
  rcases slashes with _ | k
  · rcases ns with _ | ⟨n, _ | ⟨m, ns⟩⟩
    · exact iff_of_false (by decide) (by rintro ⟨n, hn, -⟩; cases hn)
    · have hn : n ≠ [] := names n List.mem_cons_self
      rw [List.replicate_zero, List.nil_append, Text.join, if_neg (by simpa using hn)]
      constructor
      · exact fun h => ⟨n, rfl, h⟩
      · rintro ⟨_, ⟨⟩, h⟩
        exact h
    · have hmem : cp '/' ∈ List.replicate 0 (cp '/') ++ Text.join [cp '/'] (n :: m :: ns) := by
        simp [Text.join]
      rw [hslash _ hmem]
      exact iff_of_false (Text.trim_ne_nil_of_slash hmem) (by rintro ⟨_, h, -⟩; cases h)
  · have hmem : cp '/' ∈ List.replicate (k + 1) (cp '/') ++ Text.join [cp '/'] ns := by simp
    rw [hslash _ hmem]
    exact iff_of_false (Text.trim_ne_nil_of_slash hmem) (by rintro ⟨_, h, -⟩; cases h)

theorem ne_nil_of_mem_ofText {t n : Text} (h : n ∈ (ofText t).names) : n ≠ [] := by
  have := (List.mem_filter.1 h).2
  rintro rfl
  cases this

end Path

namespace Settings

/-- A text that is not blank, but becomes a path that is: what it has beside a name of blanks are
slashes and single dots, which a path drops. -/
def Fades (t : Text) : Prop :=
  Text.trim t ≠ [] ∧ ∃ n, Path.ofText t = ⟨0, [n]⟩ ∧ Text.trim n = []

def ownValue (s : Settings) : Key → Value
  | .outputPath => .path s.outputPath
  | .append => .bool s.append
  | .clamp => .bool s.clamp
  | .metricsPath => match s.metricsPath with
    | none => .none
    | some p => .path p
  | .logLevel => .text s.logLevel.toText

def own (s : Settings) : Overrides where
  pairs := Key.all.map fun key => (key.toText, s.ownValue key)
  distinct := by
    rw [List.map_map]
    show (Key.all.map Key.toText).Nodup
    decide

theorem mem_own {s : Settings} {t : Text} {v : Value} :
    (t, v) ∈ s.own.given ↔ ∃ key : Key, t = key.toText ∧ v = s.ownValue key ∧ v ≠ .none := by
  rw [Overrides.mem_given, own, List.mem_map]
  constructor
  · rintro ⟨⟨key, -, heq⟩, hv⟩
    cases heq
    exact ⟨key, rfl, rfl, hv⟩
  · rintro ⟨key, rfl, rfl, hv⟩
    exact ⟨⟨key, CommandLine.Flags.mem_all key, rfl⟩, hv⟩

theorem override_own_iff {s : Settings} :
    s.override s.own.entries = .ok s ↔
      ∀ key, s.ownValue key ≠ .none → Means key (s.ownValue key) (s.part key) := by
  rw [Overrides.override_eq_ok_iff]
  constructor
  · rintro ⟨-, hsets⟩ key hv
    have hkey := hsets key
    rw [Overrides.value_eq_some_iff.2 (mem_own.2 ⟨key, rfl, rfl, hv⟩)] at hkey
    exact hkey
  · intro h
    constructor
    · intro t v hmem
      obtain ⟨key, rfl, rfl, hv⟩ := mem_own.1 hmem
      exact ⟨key, _, rfl, h key hv⟩
    · intro key
      rcases hvalue : s.own.value key with _ | v
      · rfl
      · obtain ⟨key', hkey, rfl, hv⟩ := mem_own.1 (Overrides.value_eq_some_iff.1 hvalue)
        obtain rfl := toText_injective hkey
        exact h key hv

theorem means_level (l : LevelName) : Means .logLevel (.text l.toText) (.logLevel l) :=
  .logLevel rfl (by cases l <;> decide)

theorem namesPath_path_iff {p q : Path} :
    NamesPath (.path p) q ↔ q = p ∧ Text.trim p.toText ≠ [] := by
  constructor
  · rintro ⟨⟩
    rename_i visible
    exact ⟨rfl, visible⟩
  · rintro ⟨rfl, visible⟩
    exact .path visible

theorem means_outputPath_iff {v : Value} {p : Path} :
    Means .outputPath v (.outputPath p) ↔ NamesPath v p := by
  constructor
  · rintro ⟨⟩
    assumption
  · exact .outputPath

theorem means_metricsPath_iff {v : Value} {p : Path} :
    Means .metricsPath v (.metricsPath (some p)) ↔ NamesPath v p := by
  constructor
  · rintro ⟨⟩
    assumption
  · exact .metricsPath

def Change.path? : Change → Option Path
  | .outputPath p => some p
  | .metricsPath p => p
  | _ => none

theorem override_own_iff_visible {s : Settings} :
    s.override s.own.entries = .ok s ↔
      ∀ key, ∀ p ∈ (s.part key).path?, Text.trim p.toText ≠ [] := by
  rw [override_own_iff]
  refine forall_congr' fun key => ?_
  cases key with
  | outputPath => simp [ownValue, part, Change.path?, means_outputPath_iff, namesPath_path_iff]
  | append => simp [ownValue, part, Change.path?, Means.append]
  | clamp => simp [ownValue, part, Change.path?, Means.clamp]
  | metricsPath =>
    rw [ownValue, part]
    cases s.metricsPath with
    | none => simp [Change.path?]
    | some p => simp [Change.path?, means_metricsPath_iff, namesPath_path_iff]
  | logLevel => simp [ownValue, part, Change.path?, means_level]

/-- Settings that are had from the defaults or from a file and then from sets of overrides, and all
entries that were accepted on the way, in their order. A set that is refused leaves settings as they
were. -/
inductive Reached : Settings → List (Key × Value) → Prop
  | default : Reached Settings.default []
  | loaded {loader : Yaml.Loader} {read : Reading} {file : Option Path}
      {layer : List (Value × Value)} {s : Settings} (lawful : loader.Lawful)
      (layered : FileLayer loader read file layer) (loads : load loader file read = .ok s) :
      Reached s (named layer)
  | overridden {s s' : Settings} {history : List (Key × Value)} (o : Overrides)
      (before : Reached s history) (accepted : s.override o.entries = .ok s') :
      Reached s' (history ++ o.keyed)

theorem valueUnder_append (key : Key) (es es' : List (Key × Value)) :
    valueUnder key (es ++ es') = (valueUnder key es').or (valueUnder key es) := by
  induction es with
  | nil => simp [valueUnder]
  | cons e es ih => rw [List.cons_append, valueUnder, valueUnder, ih, Option.or_assoc]

theorem FileLayer.unique {loader : Yaml.Loader} {read : Reading} {file : Option Path}
    {layer layer' : List (Value × Value)} (lawful : loader.Lawful)
    (h : FileLayer loader read file layer) (h' : FileLayer loader read file layer') :
    layer = layer' := by
  rcases file with _ | p
  · cases h
    cases h'
    rfl
  · obtain ⟨r, hr, rfl⟩ := (fileLayer_some_iff lawful).1 h
    obtain ⟨r', hr', rfl⟩ := (fileLayer_some_iff lawful).1 h'
    rw [hr] at hr'
    cases hr'
    rfl

theorem Reached.sets {s : Settings} {history : List (Key × Value)} (h : Reached s history)
    (key : Key) : Sets Settings.default s key (valueUnder key history) := by
  induction h with
  | default => rfl
  | loaded lawful layered loads =>
    obtain ⟨layer', cs, hlayer, hcs, rfl⟩ := (load_eq_ok_iff lawful).1 loads
    obtain rfl := layered.unique lawful hlayer
    exact changeAll_sets key (changesOf_eq_ok_iff.1 hcs).2 _
  | overridden o before accepted ih =>
    rw [valueUnder_append]
    exact ih.over ((Overrides.override_eq_ok_iff.1 accepted).2 key)

theorem NamesPath.visible_iff {v : Value} {p : Path} (h : NamesPath v p) :
    Text.trim p.toText ≠ [] ↔ ∀ t, v = .text t → ¬Fades t := by
  cases h with
  | @text t visible =>
    rw [Ne, Path.trim_toText_eq_nil_iff fun n => Path.ne_nil_of_mem_ofText]
    constructor
    · rintro h _ ⟨⟩ ⟨-, hfaded⟩
      exact h hfaded
    · exact fun h hfaded => h t rfl ⟨visible, hfaded⟩
  | path visible => exact iff_of_true visible (by rintro t ⟨⟩)

def pathKeys : List Key := [.outputPath, .metricsPath]

theorem Means.visible_iff {key : Key} {v : Value} {c : Change} (h : Means key v c) :
    (∀ p ∈ c.path?, Text.trim p.toText ≠ []) ↔ ∀ t, key ∈ pathKeys → v = .text t → ¬Fades t := by
  cases h with
  | append b => exact iff_of_true nofun (fun _ hkey => absurd hkey (by decide))
  | clamp b => exact iff_of_true nofun (fun _ hkey => absurd hkey (by decide))
  | logLevel => exact iff_of_true nofun (fun _ hkey => absurd hkey (by decide))
  | outputPath path => simpa [Change.path?, pathKeys] using path.visible_iff
  | metricsPath path => simpa [Change.path?, pathKeys] using path.visible_iff
  | noMetricsPath => exact iff_of_true nofun (by rintro t - ⟨⟩)

theorem default_visible (key : Key) :
    ∀ p ∈ (Settings.default.part key).path?, Text.trim p.toText ≠ [] := by
  cases key with
  | outputPath => simpa [part, Settings.default, Change.path?] using by decide
  | _ => exact nofun

/-- Settings that were reached from the defaults or from any file, by any sets of overrides, stay
the same when they are overridden with their own values, exactly if no path among them was last
given as a text that fades. Their level is in any case one that logging can be set to. -/
theorem reached_stable_iff {s : Settings} {history : List (Key × Value)}
    (reached : Reached s history) :
    (s.override s.own.entries = .ok s ↔
      ∀ key ∈ pathKeys, ∀ t, valueUnder key history = some (.text t) → ¬Fades t) ∧
    ∀ root, (RootLog.setUp (.text s.logLevel.toText) root).1 = .ok () := by
  constructor
  · rw [override_own_iff_visible]
    -- A setting without a value is the default, and any other is what the last value means.
    have hkeys : ∀ key, (∀ p ∈ (s.part key).path?, Text.trim p.toText ≠ []) ↔
        (key ∈ pathKeys → ∀ t, valueUnder key history = some (.text t) → ¬Fades t) := by
      intro key
      have hkey := reached.sets key
      rcases hvalue : valueUnder key history with _ | v
      · rw [hvalue] at hkey
        have hsame : s.part key = Settings.default.part key := hkey
        rw [hsame]
        exact iff_of_true (default_visible key) (by rintro - t ⟨⟩)
      · rw [hvalue] at hkey
        have hmeans : Means key v (s.part key) := hkey
        rw [hmeans.visible_iff]
        simp only [Option.some.injEq]
        exact forall_comm
    exact forall_congr' hkeys
  · intro root
    cases hlevel : s.logLevel <;> rfl

def tidied : Overrides :=
  ⟨[(lit "output_path", .text (lit " /b//")), (lit "metrics_path", .none),
    (lit "log_level", .text (lit " debug "))], by decide⟩

def tidy : Settings := ⟨⟨0, [lit " ", lit "b"]⟩, false, false, none, .debug⟩

theorem reached_stable_iff_tidy :
    Reached tidy tidied.keyed ∧ tidy.override tidy.own.entries = .ok tidy := by
  have reached : Reached tidy tidied.keyed := .overridden tidied .default (by decide +kernel)
  refine ⟨reached, (reached_stable_iff reached).1.2 fun key hkey t hvalue hfades => ?_⟩
  have houtput : valueUnder .outputPath tidied.keyed = some (.text (lit " /b//")) := rfl
  have hmetrics : valueUnder .metricsPath tidied.keyed = none := rfl
  obtain rfl | rfl : key = .outputPath ∨ key = .metricsPath := by simpa [pathKeys] using hkey
  · rw [houtput] at hvalue
    cases hvalue
    obtain ⟨-, n, hpath, -⟩ := hfades
    have hnames : (Path.ofText (lit " /b//")).names = [lit " ", lit "b"] := by decide
    rw [hpath] at hnames
    cases hnames
  · rw [hmetrics] at hvalue
    cases hvalue

def blankName : Overrides := ⟨[(lit "output_path", .text (lit " /"))], by decide⟩

def blankNamed : Settings := { Settings.default with outputPath := ⟨0, [lit " "]⟩ }

/-- A text of a blank and a slash is accepted, but the path it names is not. -/
theorem not_stable_blankNamed :
    Reached blankNamed blankName.keyed ∧
      blankNamed.override blankNamed.own.entries =
        .error (.notAPath (lit "output_path") (lit "PosixPath(' ')")) := by
  constructor
  · exact .overridden blankName .default (by decide +kernel)
  · decide +kernel

end Settings

end HostTelemetry
