import HostTelemetry.CommandLine.Run
import HostTelemetry.Proofs.Settings.Loading
import HostTelemetry.Proofs.Yaml.Building

/-!
# How a bad settings file is reported

A command line that comes to its settings ends at a file that cannot be loaded: with a report, if
the failure is one of settings, and with the failure itself, if the file leaks a fault.
-/

set_option autoImplicit false

namespace HostTelemetry.CommandLine

def Flags.Counts (f : Flags) : Prop := f.count = .none ∨ ∃ n : Int, f.count = .int n ∧ 1 ≤ n

/-- What is said of settings that cannot be used. -/
def Flags.complaint (e : Failure) : Prepared :=
  if e.kind = .settings then .ended (.exits 1) (lit "Configuration error: " ++ e.message ++ [10])
  else .ended (.fails e) []

variable {loader : Yaml.Loader} {read : Settings.Reading}

theorem Flags.prepare_error {f : Flags} {environment : Option Text} {e : Failure}
    (counts : f.Counts)
    (failed : Settings.load loader (f.settingsFile environment) read = .error e) :
    f.prepare loader environment read = Flags.complaint e := by
  have hsettings : f.settings loader environment read = .error e := by
    rw [Flags.settings, failed]
    rfl
  rw [Flags.prepare, hsettings]
  obtain hcount | ⟨n, hcount, hn⟩ := counts
  · rw [hcount]
    rfl
  · rw [hcount]
    dsimp only
    rw [if_neg (by omega)]
    rfl

/-- Loading the settings of a file fails as settings, but for the faults that the file leaks, and
each of these leaves as it is. Among them are bytes that spell no text, which are never loaded. A
command line reports the former failures and ends with the latter. -/
theorem load_error_iff (lawful : loader.Lawful) (asks : read.Asks) :
    (∀ asked environment e,
      (Settings.load loader (Settings.fileFor asked environment) read = .error e ∧
          e.kind ≠ .settings ↔
        ∃ p f, Settings.fileFor asked environment = some p ∧ Settings.Leaks loader p read f ∧
          e = .passed f)) ∧
      (∀ p bs, read p = .ok bs → (∀ t, ¬Utf8.Spells t bs) →
        (∀ s, Settings.load loader (some p) read ≠ .ok s) ∧
          (bs.length < Yaml.partSize → ∃ u, Settings.Leaks loader p read (.unreadable u))) ∧
      ∀ words flags environment w e, Request.ofTexts words = .ok (.run flags) → flags.Counts →
        Settings.load loader (flags.settingsFile environment) read = .error e →
          prepare loader words environment read w = (Flags.complaint e, w) := by
  refine ⟨fun asked environment e => ⟨?_, ?_⟩, fun p bs given unspelled => ⟨?_, ?_⟩, ?_⟩
  · rintro ⟨hload, hkind⟩
    rcases hfile : Settings.fileFor asked environment with _ | p
    · rw [hfile] at hload
      cases hload
    · rw [hfile] at hload
      obtain ⟨f, he, hleaks⟩ := (Settings.load_error lawful asks hload).resolve_left hkind
      exact ⟨p, f, rfl, hleaks, he⟩
  · rintro ⟨p, f, hfile, hleaks, rfl⟩
    rw [hfile]
    exact hleaks.load lawful
  · exact Settings.not_load_of_unspelled lawful given unspelled
  · exact Settings.Leaks.of_unspelled lawful given unspelled
  · intro words flags environment w e hwords hcounts hload
    rw [prepare, hwords]
    dsimp only
    rw [Flags.prepare_error hcounts hload]

def badFiles : Disk :=
  (Disk.empty.create (Disk.here ++ [[99]]) [0xFF]).create (Disk.here ++ [[100]]) [64]

theorem load_byte :
    Settings.load Yaml.usualReader (some ⟨0, [lit "c"]⟩) badFiles.read =
      .error (.passed (.unreadable ⟨0, [0xFF], .startByte⟩)) := by decide +kernel

theorem load_sign :
    Settings.load Yaml.usualReader (some ⟨0, [lit "d"]⟩) badFiles.read =
      .error (.notYaml ⟨0, [lit "d"]⟩) := by decide +kernel

theorem load_error_iff_badFiles :
    let loader := Yaml.usualReader
    loader.Lawful ∧ (∃ u, Settings.Leaks loader ⟨0, [lit "c"]⟩ badFiles.read (.unreadable u)) ∧
      (∀ w, prepare loader [lit "--config", lit "c"] none badFiles.read w =
        (.ended (.fails (.passed (.unreadable ⟨0, [0xFF], .startByte⟩))) [], w)) ∧
      ∀ w, prepare loader [lit "--config", lit "d"] none badFiles.read w =
        (.ended (.exits 1) (lit "Configuration error: Invalid YAML in d\n"), w) := by
  intro loader
  have hlawful : loader.Lawful := Yaml.reader_lawful _
  obtain ⟨-, hbytes, hprepare⟩ := load_error_iff hlawful (Settings.disk_asks badFiles)
  have hunspelled : ∀ t, ¬Utf8.Spells t [0xFF] := by
    intro t ht
    cases Utf8.decode_eq_ok_iff.2 ht
  refine ⟨hlawful, (hbytes ⟨0, [lit "c"]⟩ [0xFF] rfl hunspelled).2 (by decide), fun w => ?_,
    fun w => ?_⟩
  · exact hprepare _ { Flags.unset with config := .text (lit "c") } none w _ rfl (Or.inl rfl)
      load_byte
  · exact hprepare _ { Flags.unset with config := .text (lit "d") } none w _ rfl (Or.inl rfl)
      load_sign

/-- Not every file is loaded or refused as settings. -/
theorem not_load_settings :
    ¬∀ (d : Disk) asked environment e,
      Settings.load Yaml.usualReader (Settings.fileFor asked environment) d.read =
        .error e → e.kind = .settings := by
  intro h
  cases h badFiles (.byText (lit "c")) none _ load_byte

end HostTelemetry.CommandLine
