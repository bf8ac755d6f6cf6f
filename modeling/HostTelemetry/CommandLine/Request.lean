import HostTelemetry.CommandLine.Word
import HostTelemetry.Integer
import HostTelemetry.Value.Basic

/-!
# What a command line asks for

Words are read from the left. Asking for help or the version ends the reading; of a switch that
comes twice the last value counts. Words that belong to no switch are a fault, but only when all
words have been read.

Two of these rules have changed since: `--config=--` now gives the text of two hyphens, and behind
`-h` a letter that is no switch is passed over, but not a value that stands after `=`.
-/

set_option autoImplicit false

namespace HostTelemetry.CommandLine

/-- The values of switches. A value that is just two hyphens is an empty list. -/
structure Flags where
  config : Value
  output : Value
  append : Bool
  clamp : Bool
  count : Value
  metricsFile : Value
  logLevel : Value

namespace Flags

def unset : Flags := ⟨.none, .none, false, false, .none, .none, .none⟩

def setValue (s : Switch) (v : Value) (f : Flags) : Flags :=
  match s with
  | .config => { f with config := v }
  | .output => { f with output := v }
  | .count => { f with count := v }
  | .metricsFile => { f with metricsFile := v }
  | .logLevel => { f with logLevel := v }
  | _ => f

end Flags

inductive Request
  | help
  | version
  | run (flags : Flags)

namespace Request

def valueOf (s : Switch) (t : Text) : Except UsageFault Value :=
  if t = lit "--" then .ok (.list [])
  else if s = .count then
    match Integer.read 10 t with
    | .ok n => .ok (.int n)
    | .error _ => .error (.notAnInteger s t)
  else .ok (.text t)

/-- Letters behind the short name of `help`: each has to be that name again. -/
def ofCluster : Text → Except UsageFault Request
  | [] => .error (.valueIgnored .help [])
  | c :: t =>
    if Switch.shortName = [cp '-', c] then (if t.isEmpty then .ok .help else ofCluster t)
    else .error (.valueIgnored .help (c :: t))

def read (f : Flags) (extras : List Text) : List Word → Except UsageFault Request
  | [] => if extras.isEmpty then .ok (.run f) else .error (.unrecognized extras)
  | .plain t :: ws => read f (extras ++ [t]) ws
  | .unknown t :: ws => read f (extras ++ [t]) ws
  | .separator :: ws => read f (extras ++ [lit "--"]) ws
  | .cluster t :: _ => ofCluster t
  | .switch s (some t) :: ws =>
    if s.takesValue then
      match valueOf s t with
      | .error e => .error e
      | .ok v => read (f.setValue s v) extras ws
    else .error (.valueIgnored s t)
  | .switch .help none :: _ => .ok .help
  | .switch .version none :: _ => .ok .version
  | .switch .append none :: ws => read { f with append := true } extras ws
  | .switch .clamp none :: ws => read { f with clamp := true } extras ws
  | .switch s none :: .plain t :: ws =>
    match valueOf s t with
    | .error e => .error e
    | .ok v => read (f.setValue s v) extras ws
  | .switch s none :: _ => .error (.noValue s)

def ofTexts (ts : List Text) : Except UsageFault Request := do
  read .unset [] (← Word.ofTexts ts)

end Request

end HostTelemetry.CommandLine
