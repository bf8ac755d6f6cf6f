import HostTelemetry.Text.Basic

/-!
# Switches

A switch is what a command line can ask for by name. Names begin with two hyphens; one switch has
a short name too. Some switches take the word after them as their value.
-/

set_option autoImplicit false

namespace HostTelemetry.CommandLine

inductive Switch
  | help
  | config
  | output
  | append
  | clamp
  | count
  | metricsFile
  | logLevel
  | version
  deriving DecidableEq, Repr

namespace Switch

def all : List Switch :=
  [.help, .config, .output, .append, .clamp, .count, .metricsFile, .logLevel, .version]

def name : Switch → Text
  | .help => lit "--help"
  | .config => lit "--config"
  | .output => lit "--output"
  | .append => lit "--append"
  | .clamp => lit "--clamp"
  | .count => lit "--count"
  | .metricsFile => lit "--metrics-file"
  | .logLevel => lit "--log-level"
  | .version => lit "--version"

def shortName : Text := lit "-h"

def names (s : Switch) : Text :=
  if s = .help then shortName ++ lit "/" ++ s.name else s.name

def placeholder? : Switch → Option Text
  | .config => some (lit "CONFIG")
  | .output => some (lit "OUTPUT_PATH")
  | .count => some (lit "COUNT")
  | .metricsFile => some (lit "METRICS_PATH")
  | .logLevel => some (lit "LOG_LEVEL")
  | _ => none

def takesValue (s : Switch) : Bool := s.placeholder?.isSome

def purpose : Switch → String
  | .help => "show this help message and exit"
  | .config => "YAML config file (default: $HOSTSIM_CONFIG if set)"
  | .output => "Output JSON Lines file (default: data.json)"
  | .append => "Append to an existing output file instead of truncating it"
  | .clamp => "Bound percentage fields to [0, 100] and network to >= 0"
  | .count => "Stop after this many samples (default: run until interrupted)"
  | .metricsFile => "Write the simulator's own OTEL counters to this JSON Lines file"
  | .logLevel => "Diagnostic log level on stderr (default: INFO)"
  | .version => "show program's version number and exit"

def named? (t : Text) : Option Switch :=
  if t = shortName then some .help else all.find? fun s => s.name == t

def beginning (t : Text) : List Switch := all.filter fun s => Text.isPrefix t s.name

end Switch

end HostTelemetry.CommandLine
