import HostTelemetry.Proofs.CommandLine.Reports
import HostTelemetry.Proofs.Settings.Effect

/-!
# The layers of a command line

A command line comes to its session exactly if it asks for a run, its file can be read and all that
the file says and the switches give is accepted. Then each setting is what the switch for it gives,
or else what the file says, or else the default, and no layer is passed over.
-/

set_option autoImplicit false

namespace HostTelemetry.CommandLine

open Settings (Key Means Sets Accepted FileLayer valueUnder named strangeKeys changesOf)

def present : Value → Option Value
  | .none => none
  | v => some v

theorem override_eq (s : Settings) (entries : List (Value × Value)) :
    s.override entries =
      (changesOf (entries.filter fun e => (present e.2).isSome)).map s.changeAll := by
  show (changesOf (entries.filter _) >>= fun cs => pure (s.changeAll cs)) = _
  rw [List.filter_congr (q := fun e => (present e.2).isSome) (by rintro ⟨k, v⟩ -; cases v <;> rfl)]
  cases changesOf (entries.filter fun e => (present e.2).isSome) <;> rfl

def Ending.isWrong : Ending → Bool
  | .exits code => code != 0
  | .fails _ => true
  | .runs => false

namespace Flags

variable {loader : Yaml.Loader} {f : Flags} {environment : Option Text} {read : Settings.Reading}

def given (f : Flags) : Key → Option Value
  | .outputPath => present f.output
  | .append => if f.append then some (.bool true) else none
  | .clamp => if f.clamp then some (.bool true) else none
  | .metricsPath => present f.metricsFile
  | .logLevel => present f.logLevel

def givenAll (f : Flags) : List (Key × Value) :=
  Key.all.filterMap fun key => (f.given key).map fun v => (key, v)

theorem filter_present (entries : List (Key × Value)) :
    (entries.map fun e => (Value.text e.1.toText, e.2)).filter (fun e => (present e.2).isSome) =
      (entries.filterMap fun e => (present e.2).map fun v => (e.1, v)).map
        fun e => (.text e.1.toText, e.2) := by
  induction entries with
  | nil => rfl
  | cons e es ih =>
    obtain ⟨key, v⟩ := e
    rw [List.map_cons, List.filter_cons, ih]
    cases v <;> rfl

theorem entries_present (f : Flags) :
    f.entries.filter (fun e => (present e.2).isSome) =
      f.givenAll.map fun e => (.text e.1.toText, e.2) := by
  rw [entries, filter_present]
  congr 1
  cases ha : f.append <;> cases hc : f.clamp <;>
    simp [givenAll, Key.all, given, present, ha, hc, List.filterMap_cons]

theorem valueUnder_filterMap (g : Key → Option Value) (key : Key) (keys : List Key) :
    valueUnder key (keys.filterMap fun k => (g k).map fun v => (k, v)) =
      if key ∈ keys then g key else none := by
  induction keys with
  | nil => rfl
  | cons k ks ih =>
    rw [List.filterMap_cons]
    by_cases hk : key = k
    · subst hk
      rw [if_pos List.mem_cons_self]
      rcases hg : g key with _ | v
      · simp only [Option.map_none, ih, hg, ite_self]
      · simp only [Option.map_some, valueUnder, ih, hg, if_true]
        split <;> rfl
    · have hmem : key ∈ k :: ks ↔ key ∈ ks := by simp [hk]
      simp only [hmem]
      rcases g k with _ | v
      · exact ih
      · simp only [Option.map_some, valueUnder, ih, if_neg (Ne.symm hk), Option.or_none]

theorem mem_all (key : Key) : key ∈ Key.all := by
  cases key <;> decide

theorem valueUnder_givenAll (f : Flags) (key : Key) : valueUnder key f.givenAll = f.given key := by
  rw [givenAll, valueUnder_filterMap, if_pos (mem_all key)]

theorem mem_givenAll {e : Key × Value} : e ∈ f.givenAll ↔ f.given e.1 = some e.2 := by
  obtain ⟨key, v⟩ := e
  simp [givenAll, mem_all]

theorem changesOf_givenAll {cs : List Settings.Change} :
    changesOf (f.givenAll.map fun e => (.text e.1.toText, e.2)) = .ok cs ↔
      List.Forall₂ (fun e c => Means e.1 e.2 c) f.givenAll cs := by
  have hnamed : named (f.givenAll.map fun e => (Value.text e.1.toText, e.2)) = f.givenAll := by
    simp [named, List.filterMap_map, Settings.ofValue?_eq_some_iff.2 rfl]
  have hstrange : strangeKeys (f.givenAll.map fun e => (Value.text e.1.toText, e.2)) = [] := by
    rw [Settings.strangeKeys_eq_nil_iff, List.forall_mem_map]
    exact fun e _ => ⟨e.1, rfl⟩
  rw [Settings.changesOf_eq_ok_iff, hnamed]
  exact and_iff_right hstrange

/-- The file that is consulted: the one of the switch, if its text is not empty, or else the one of
the environment, if that is not blank, or else none. -/
inductive Consults (f : Flags) (environment : Option Text) : Option Path → Prop
  | switch {t : Text} (config : f.config = .text t) (visible : t ≠ []) :
      Consults f environment (some (Path.ofText t))
  | environment (unset : ∀ t, f.config = .text t → t = [])
      (visible : Text.trim (environment.getD []) ≠ []) :
      Consults f environment (some (Path.ofText (Text.trim (environment.getD []))))
  | nothing (unset : ∀ t, f.config = .text t → t = [])
      (blank : Text.trim (environment.getD []) = []) : Consults f environment none

inductive Limits (f : Flags) : Option Int → Prop
  | unlimited (count : f.count = .none) : Limits f none
  | limited {n : Int} (count : f.count = .int n) (positive : 1 ≤ n) : Limits f (some n)

theorem settingsFile_switch {t : Text} (config : f.config = .text t) (visible : t ≠ []) :
    f.settingsFile environment = some (Path.ofText t) := by
  obtain ⟨c, t', rfl⟩ := List.exists_cons_of_ne_nil visible
  rw [settingsFile, asked, config]
  rfl

theorem settingsFile_unset (unset : ∀ t, f.config = .text t → t = []) :
    f.settingsFile environment =
      if Text.trim (environment.getD []) = [] then none
      else some (Path.ofText (Text.trim (environment.getD []))) := by
  have hfile : f.settingsFile environment = Settings.fileFor .not environment := by
    unfold settingsFile asked
    split
    · rename_i t hconfig
      rw [unset t hconfig]
      rfl
    · rfl
  rw [hfile]
  simp only [Settings.fileFor]
  split
  · rename_i hblank
    rw [if_pos hblank]
  · rename_i hvisible
    rw [if_neg hvisible]

theorem settingsFile_eq_iff {file : Option Path} :
    f.settingsFile environment = file ↔ f.Consults environment file := by
  constructor
  · rintro rfl
    by_cases hswitch : ∃ t, f.config = .text t ∧ t ≠ []
    · obtain ⟨t, hconfig, hvisible⟩ := hswitch
      rw [settingsFile_switch hconfig hvisible]
      exact .switch hconfig hvisible
    · simp only [not_exists, not_and, not_not] at hswitch
      rw [settingsFile_unset hswitch]
      split
      · rename_i hblank
        exact .nothing hswitch hblank
      · rename_i hvisible
        exact .environment hswitch hvisible
  · intro h
    cases h with
    | switch config visible => exact settingsFile_switch config visible
    | environment unset visible => rw [settingsFile_unset unset, if_neg visible]
    | nothing unset blank => rw [settingsFile_unset unset, if_pos blank]

/-- The settings of a command line, field by field: the file's layer is accepted, and each setting
is what the switch for it gives, or else what the file says last, or else the default. -/
def Layered (f : Flags) (layer : List (Value × Value)) (s : Settings) : Prop :=
  Accepted layer ∧
    ∀ key, Sets Settings.default s key ((f.given key).or (valueUnder key (named layer)))

theorem override_eq_ok_iff {s s' : Settings} :
    s.override f.entries = .ok s' ↔
      ∃ cs, List.Forall₂ (fun e c => Means e.1 e.2 c) f.givenAll cs ∧ s.changeAll cs = s' := by
  simp only [override_eq, entries_present, map_eq_ok, changesOf_givenAll]

theorem sets_layers {layer : List (Value × Value)} {cs cs' : List Settings.Change}
    (hfile : changesOf layer = .ok cs)
    (hswitches : List.Forall₂ (fun e c => Means e.1 e.2 c) f.givenAll cs') (key : Key) :
    Sets Settings.default ((Settings.default.changeAll cs).changeAll cs') key
      ((f.given key).or (valueUnder key (named layer))) := by
  rw [← valueUnder_givenAll]
  exact (Settings.changeAll_sets key (Settings.changesOf_eq_ok_iff.1 hfile).2 _).over
    (Settings.changeAll_sets key hswitches _)

theorem settings_eq_ok_iff (lawful : loader.Lawful) {s : Settings} :
    f.settings loader environment read = .ok s ↔
      ∃ layer, FileLayer loader read (f.settingsFile environment) layer ∧ f.Layered layer s := by
  have hsettings : f.settings loader environment read = .ok s ↔
      ∃ s₁, Settings.load loader (f.settingsFile environment) read = .ok s₁ ∧
        s₁.override f.entries = .ok s := by
    rw [Flags.settings]
    rcases Settings.load loader (f.settingsFile environment) read with e | s₁
    · exact iff_of_false (fun h => by cases h) (by rintro ⟨s₁, h, -⟩; cases h)
    · exact ⟨fun h => ⟨s₁, rfl, h⟩, by rintro ⟨s₁, h, hs⟩; cases h; exact hs⟩
  rw [hsettings]
  constructor
  · rintro ⟨s₁, hload, hoverride⟩
    obtain ⟨layer, cs, hlayer, hcs, rfl⟩ := (Settings.load_eq_ok_iff lawful).1 hload
    obtain ⟨cs', hcs', rfl⟩ := override_eq_ok_iff.1 hoverride
    exact ⟨layer, hlayer, Settings.accepted_iff.2 ⟨cs, hcs⟩, sets_layers hcs hcs'⟩
  · rintro ⟨layer, hlayer, haccepted, hsets⟩
    obtain ⟨cs, hcs⟩ := Settings.accepted_iff.1 haccepted
    have hmeant : ∀ e ∈ f.givenAll, ∃ c, Means e.1 e.2 c := by
      intro e he
      have hkey := hsets e.1
      rw [mem_givenAll.1 he] at hkey
      exact ⟨_, hkey⟩
    obtain ⟨cs', hcs'⟩ := Settings.exists_forall₂.2 hmeant
    -- what the changes come to is determined, so it is the settings that are claimed
    have hsame : (Settings.default.changeAll cs).changeAll cs' = s :=
      Settings.ext_part fun key => (sets_layers hcs hcs' key).unique (hsets key)
    exact ⟨_, (Settings.load_eq_ok_iff lawful).2 ⟨layer, cs, hlayer, hcs, rfl⟩,
      override_eq_ok_iff.2 ⟨cs', hcs', hsame⟩⟩

theorem Limits.unique {limit limit' : Option Int} (h : f.Limits limit) (h' : f.Limits limit') :
    limit = limit' := by
  cases h with
  | unlimited count =>
    cases h' with
    | unlimited => rfl
    | limited count' => rw [count] at count'; cases count'
  | limited count positive =>
    cases h' with
    | unlimited count' => rw [count] at count'; cases count'
    | limited count' => rw [count] at count'; cases count'; rfl

theorem prepare_of_limits {limit : Option Int} (h : f.Limits limit) :
    f.prepare loader environment read = match f.settings loader environment read with
      | .ok s => .ready s limit
      | .error e => complaint e := by
  cases h with
  | unlimited count =>
    rw [prepare, count]
    rfl
  | limited count positive =>
    rw [prepare, count]
    dsimp only
    rw [if_neg (by omega)]
    rfl

theorem prepare_wrongCount (h : ∀ limit, ¬f.Limits limit) :
    ∃ e said, f.prepare loader environment read = .ended e said ∧ e.isWrong = true := by
  unfold prepare
  dsimp only
  split
  · rename_i hcount
    exact absurd (.unlimited hcount) (h none)
  · rename_i n hcount
    split
    · exact ⟨_, _, rfl, rfl⟩
    · rename_i hn
      exact absurd (.limited hcount (not_lt.1 hn)) (h (some n))
  · exact ⟨_, _, rfl, rfl⟩

theorem complaint_isWrong (e : Failure) :
    ∃ ending said, complaint e = .ended ending said ∧ ending.isWrong = true := by
  unfold complaint
  split <;> exact ⟨_, _, rfl, rfl⟩

theorem prepare_eq_ready_iff {s : Settings} {limit : Option Int} :
    f.prepare loader environment read = .ready s limit ↔
      f.Limits limit ∧ f.settings loader environment read = .ok s := by
  by_cases hlimits : ∃ limit', f.Limits limit'
  · obtain ⟨limit', hlimit'⟩ := hlimits
    rw [prepare_of_limits hlimit']
    rcases f.settings loader environment read with e | s'
    · refine iff_of_false (fun h => ?_) (by rintro ⟨-, h⟩; cases h)
      obtain ⟨ending, said, hended, -⟩ := complaint_isWrong e
      dsimp only at h
      rw [hended] at h
      cases h
    · constructor
      · intro h
        cases h
        exact ⟨hlimit', rfl⟩
      · rintro ⟨hlimit, h⟩
        cases h
        rw [hlimit.unique hlimit']
  · refine iff_of_false (fun h => ?_) (fun h => hlimits ⟨limit, h.1⟩)
    obtain ⟨e, said, hended, -⟩ := prepare_wrongCount (not_exists.1 hlimits)
    rw [h] at hended
    cases hended

theorem prepare_isWrong (h : ∀ s limit, f.prepare loader environment read ≠ .ready s limit) :
    ∃ e said, f.prepare loader environment read = .ended e said ∧ e.isWrong = true := by
  by_cases hlimits : ∃ limit, f.Limits limit
  · obtain ⟨limit, hlimit⟩ := hlimits
    rcases hsettings : f.settings loader environment read with e | s
    · rw [prepare_of_limits hlimit, hsettings]
      exact complaint_isWrong e
    · exact absurd (prepare_eq_ready_iff.2 ⟨hlimit, hsettings⟩) (h s limit)
  · exact prepare_wrongCount (not_exists.1 hlimits)

end Flags

theorem say_ne_ready (t : Text) (w : World) (s : Settings) (limit : Option Int) :
    (say t w).1 ≠ .ready s limit := by
  unfold say
  rcases w.stdout.write t with ⟨_ | _, o⟩
  · dsimp only
    split <;> exact nofun
  · exact nofun

/-- A command line comes to its session exactly if it asks for a run, its count is a limit, its file
holds a layer that is accepted and its switches give values that mean something. Then each setting
is what the switch for it gives, or else what the file says, or else the default. A file without
such a layer, or a switch with another value, ends it as wrong, whatever the other layer says. Of
all settings only the metrics path can be set to nothing. -/
theorem prepare_layers {loader : Yaml.Loader} (lawful : loader.Lawful) (words : List Text)
    (environment : Option Text) (read : Settings.Reading) (w : World) :
    (∀ s limit v, prepare loader words environment read w = (.ready s limit, v) ↔
      v = w ∧ ∃ flags file layer, Request.ofTexts words = .ok (.run flags) ∧ flags.Limits limit ∧
        flags.Consults environment file ∧ FileLayer loader read file layer ∧
        flags.Layered layer s) ∧
    (∀ flags file, Request.ofTexts words = .ok (.run flags) → flags.Consults environment file →
      ((∀ layer, FileLayer loader read file layer → ¬Accepted layer) ∨
        ∃ key v, flags.given key = some v ∧ ∀ c, ¬Means key v c) →
      ∃ e said, prepare loader words environment read w = (.ended e said, w) ∧ e.isWrong = true) ∧
    ∀ key c, Means key .none c ↔ key = .metricsPath ∧ c = .metricsPath none := by
  refine ⟨fun s limit v => ?_, fun flags file hwords hconsults hwrong => ?_,
    fun key c => Settings.means_none_iff⟩
  · rcases hwords : Request.ofTexts words with e | request
    · rw [prepare, hwords]
      exact iff_of_false (fun h => by cases h) (by rintro ⟨-, flags, file, layer, h, -⟩; cases h)
    · cases request with
      | help =>
        rw [prepare, hwords]
        refine iff_of_false (fun h => ?_) (by rintro ⟨-, flags, file, layer, h, -⟩; cases h)
        exact say_ne_ready _ _ s limit (congrArg Prod.fst h)
      | version =>
        rw [prepare, hwords]
        refine iff_of_false (fun h => ?_) (by rintro ⟨-, flags, file, layer, h, -⟩; cases h)
        exact say_ne_ready _ _ s limit (congrArg Prod.fst h)
      | run f =>
        rw [prepare, hwords]
        dsimp only
        rw [Prod.mk.injEq, Flags.prepare_eq_ready_iff, Flags.settings_eq_ok_iff lawful]
        constructor
        · rintro ⟨⟨hlimit, layer, hlayer, hlayered⟩, rfl⟩
          exact ⟨rfl, f, _, layer, rfl, hlimit, Flags.settingsFile_eq_iff.1 rfl, hlayer, hlayered⟩
        · rintro ⟨rfl, flags, file, layer, hf, hlimit, hconsults, hlayer, hlayered⟩
          cases hf
          rw [← Flags.settingsFile_eq_iff] at hconsults
          subst hconsults
          exact ⟨⟨hlimit, layer, hlayer, hlayered⟩, rfl⟩
  · have hready : ∀ s limit, flags.prepare loader environment read ≠ .ready s limit := by
      intro s limit hready
      obtain ⟨-, hsettings⟩ := Flags.prepare_eq_ready_iff.1 hready
      obtain ⟨layer, hlayer, haccepted, hsets⟩ := (Flags.settings_eq_ok_iff lawful).1 hsettings
      rcases hwrong with hfile | ⟨key, v, hgiven, hmeaningless⟩
      · rw [Flags.settingsFile_eq_iff.2 hconsults] at hlayer
        exact hfile layer hlayer haccepted
      · have hkey := hsets key
        rw [hgiven] at hkey
        exact hmeaningless _ hkey
    obtain ⟨e, said, hended, hisWrong⟩ := Flags.prepare_isWrong hready
    refine ⟨e, said, ?_, hisWrong⟩
    rw [prepare, hwords]
    dsimp only
    rw [hended]

def twoFiles : Disk :=
  let file := fun t => (lit t).flatMap Utf8.encodeOne
  (Disk.empty.create (Disk.here ++ [[99]]) (file "append: true\nlog_level: error\n")).create
    (Disk.here ++ [[100]]) (file "log_level: loud\n")

def debugging (file : String) : List Text :=
  [lit "--config", lit file, lit "--log-level", lit "debug"]

def debuggingFlags (file : String) : Flags :=
  { Flags.unset with config := .text (lit file), logLevel := .text (lit "debug") }

/-- The level of the switch counts, but one in the file that is none is not passed over. -/
theorem prepare_layers_twoFiles :
    let loader := Yaml.usualReader
    loader.Lawful ∧ (∀ w, prepare loader (debugging "c") none twoFiles.read w =
        (.ready ⟨Settings.default.outputPath, true, false, none, .debug⟩ none, w) ∧
      ∃ flags file layer, Request.ofTexts (debugging "c") = .ok (.run flags) ∧
        flags.Limits none ∧ flags.Consults none file ∧
        FileLayer loader twoFiles.read file layer ∧
        flags.Layered layer ⟨Settings.default.outputPath, true, false, none, .debug⟩) ∧
    ∀ w, ∃ e said, prepare loader (debugging "d") none twoFiles.read w = (.ended e said, w) ∧
      e.isWrong = true := by
  intro loader
  have hlawful : loader.Lawful := Yaml.reader_lawful _
  refine ⟨hlawful, ?_, ?_⟩
  · intro w
    have hsettings : (debuggingFlags "c").settings loader none twoFiles.read =
        .ok ⟨Settings.default.outputPath, true, false, none, .debug⟩ := by decide +kernel
    have hready : prepare loader (debugging "c") none twoFiles.read w =
        (.ready ⟨Settings.default.outputPath, true, false, none, .debug⟩ none, w) := by
      rw [prepare, show Request.ofTexts (debugging "c") = .ok (.run (debuggingFlags "c")) from rfl]
      dsimp only
      rw [Flags.prepare_eq_ready_iff.2 ⟨.unlimited rfl, hsettings⟩]
    exact ⟨hready, (((prepare_layers hlawful _ _ _ w).1 _ _ _).1 hready).2⟩
  · intro w
    have hload : (Settings.load loader (some ⟨0, [lit "d"]⟩) twoFiles.read).isOk = false := by
      decide +kernel
    refine (prepare_layers hlawful _ _ _ w).2.1 (debuggingFlags "d") (some ⟨0, [lit "d"]⟩) rfl ?_
      (.inl ?_)
    · exact .switch (t := lit "d") rfl nofun
    · intro layer hlayer haccepted
      obtain ⟨cs, hcs⟩ := Settings.accepted_iff.1 haccepted
      rw [(Settings.load_eq_ok_iff hlawful).2 ⟨layer, cs, hlayer, hcs, rfl⟩] at hload
      cases hload

end HostTelemetry.CommandLine
