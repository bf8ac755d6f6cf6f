import HostTelemetry.Fault
import HostTelemetry.Path

/-!
# Failures

How the simulator fails: settings that cannot be used, a file that cannot be had, a sample or
line that is no record, and writes and flushes that did not happen. A failure keeps the fault it
comes from. A fault that nothing expects passes through as it is.
-/

set_option autoImplicit false

namespace HostTelemetry

inductive Failure
  | passed (f : Fault)
  -- settings
  | unreadable (path : Path) (f : Fault)
  | notYaml (path : Path)
  | notAMapping (path : Path)
  | unknownKeys (keys : List Text)
  | notATruth (key shown : Text)
  | notAPath (key shown : Text)
  | notALevel (shown : Text)
  -- files
  | cannotOpen (path : Path) (f : Fault)
  | cannotOpenMetrics (path : Path) (f : Fault)
  -- records
  | notJson (f : JsonFault) (p : Place)
  | notAnObject
  | missingFields (names : List Text)
  | unknownFields (names : List Text)
  | notANumber (name typeName : Text)
  | notFinite (name shown : Text)
  | notATime (shown : Text)
  | notATimeText (t : Text)
  | noOffset (t : Text)
  | notAStamp (typeName : Text)
  | notAware
  -- writing
  | notOpen (path : Path)
  | cannotWrite (path : Path) (f : Fault)
  | cannotEcho (f : Fault)
  | cannotFlush (path : Path) (f : Fault)
  | cannotClose (path : Path) (f : Fault)
  deriving DecidableEq, Repr

namespace Failure

def kind : Failure → Kind
  | .passed f => f.kind
  | .unreadable .. | .notYaml _ | .notAMapping _ | .unknownKeys _ | .notATruth .. | .notAPath ..
  | .notALevel _ => .settings
  | .cannotOpen .. | .cannotOpenMetrics .. => .acquire
  | .notOpen _ | .cannotWrite .. | .cannotEcho _ => .write
  | .cannotFlush .. | .cannotClose .. => .flush
  | _ => .record

def cause : Failure → Option Kind
  | .unreadable _ f | .cannotOpen _ f | .cannotOpenMetrics _ f | .cannotWrite _ f | .cannotEcho f
  | .cannotFlush _ f | .cannotClose _ f => some f.kind
  | .notYaml _ => some .yaml
  | .notJson .. => some .json
  | .notATimeText _ => some .value
  | _ => none

def about (before : String) (p : Path) (after : Text) : Text := lit before ++ p.toText ++ after

def because (f : Fault) : Text := lit ": " ++ f.message

def message : Failure → Text
  | .passed f => f.message
  | .unreadable p f => about "Cannot read config file " p (because f)
  | .notYaml p => about "Invalid YAML in " p []
  | .notAMapping p => about "Config file " p (lit " must contain a mapping")
  | .unknownKeys ks => lit "Unknown config keys: " ++ Text.join (lit ", ") ks
  | .notATruth k s => k ++ lit " must be true or false, got " ++ s
  | .notAPath k s => k ++ lit " must be a non-empty path, got " ++ s
  | .notALevel s => lit "Unknown log level: " ++ s
  | .cannotOpen p f => about "Cannot open " p (because f)
  | .cannotOpenMetrics p f => about "Cannot open metrics file " p (because f)
  | .notJson f p => lit "Invalid JSON line: " ++ (Fault.json f p).message
  | .notAnObject => lit "JSON line is not an object"
  | .missingFields ns => lit "Missing fields: " ++ Text.join (lit ", ") ns
  | .unknownFields ns => lit "Unknown fields: " ++ Text.join (lit ", ") ns
  | .notANumber n t => n ++ lit " must be a number, got " ++ t
  | .notFinite n s => n ++ lit " is not finite: " ++ s
  | .notATime s => lit "Invalid time value: " ++ s
  | .notATimeText t => lit "Invalid time value: " ++ Text.quoted t
  | .noOffset t => lit "time has no UTC offset: " ++ Text.quoted t
  | .notAStamp t => lit "time must be a datetime, got " ++ t
  | .notAware => lit "time must be timezone-aware"
  | .notOpen p => about "Sink for " p (lit " is not open")
  | .cannotWrite p f => about "Cannot write to " p (because f)
  | .cannotEcho f => lit "Cannot write to observation stream" ++ because f
  | .cannotFlush p f => about "Cannot flush " p (because f)
  | .cannotClose p f => about "Cannot close " p (because f)

/-- Failures that the simulator raises on purpose, planned ones among them. -/
def isOwn (f : Failure) : Bool :=
  match f.kind with
  | .settings | .acquire | .record | .write | .flush => true
  | _ => false

end Failure

end HostTelemetry
