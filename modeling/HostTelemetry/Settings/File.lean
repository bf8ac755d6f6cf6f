import HostTelemetry.Settings.Basic
import HostTelemetry.Yaml.Loader

/-!
# The settings file

A path that is given explicitly names the file, otherwise a variable of the environment does, if
it is not blank. Without a file, or with one that holds nothing, the settings are the defaults.
-/

set_option autoImplicit false

namespace HostTelemetry.Settings

inductive Asked
  | not
  | byText (t : Text)
  | byPath (p : Path)

/-- The file to read; an empty text asks for none. -/
def fileFor (asked : Asked) (environment : Option Text) : Option Path :=
  match asked with
  | .byPath p => some p
  | .byText (c :: t) => some (Path.ofText (c :: t))
  | _ =>
    match Text.trim (environment.getD []) with
    | [] => none
    | t => some (Path.ofText t)

abbrev Reading := Path → Except Fault Bytes

/-- What is said of a file that cannot be opened, or whose document cannot be loaded. -/
def refusal (p : Path) (f : Fault) : Failure :=
  if f.isSystem then .unreadable p f else if f = .yaml then .notYaml p else .passed f

def documentOf (loader : Yaml.Loader) (p : Path) (read : Reading) : Except Failure Yaml.Document :=
  (read p >>= fun bs => loader.load (.ofPieces (loader.pieces bs))).mapError (refusal p)

def entriesOf (loader : Yaml.Loader) (p : Path) (read : Reading) :
    Except Failure (Option (List (Value × Value))) := do
  match ← documentOf loader p read with
  | .nothing => .ok none
  | .other => .error (.notAMapping p)
  | .entries kvs => .ok (some kvs)

def load (loader : Yaml.Loader) (file : Option Path) (read : Reading) :
    Except Failure Settings := do
  match file with
  | none => pure default
  | some p =>
    match ← entriesOf loader p read with
    | none => pure default
    | some kvs => pure (default.changeAll (← changesOf kvs))

end HostTelemetry.Settings
