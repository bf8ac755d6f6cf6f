import HostTelemetry.CommandLine.Request
import HostTelemetry.CommandLine.Usage
import HostTelemetry.Log.Root
import HostTelemetry.Settings.File
import HostTelemetry.Simulation.Session

/-!
# Running a command line

First the words are read, then the settings are loaded and changed by the switches, then the
session runs. The exit code is 0 if it returned or was interrupted, 1 for wrong settings or a
failure of the simulator's own, and 2 for wrong words.
-/

set_option autoImplicit false

namespace HostTelemetry.CommandLine

inductive Ending
  | exits (code : Nat)
  /-- A failure that nothing handles. -/
  | fails (f : Failure)
  /-- The session has not come to its end. -/
  | runs
  deriving DecidableEq, Repr

/-- What becomes of the words: an end at once, with what is said on the error stream, or settings
to run with. -/
inductive Prepared
  | ended (e : Ending) (said : Text)
  | ready (settings : Settings) (limit : Option Int)

def say (t : Text) (w : World) : Prepared × World :=
  let (r, o) := w.stdout.write t
  let w := { w with stdout := o }
  match r with
  | .ok _ => (.ended (.exits 0) [], w)
  | .error f => (.ended (if f.isSystem then .exits 0 else .fails (.passed f)) [], w)

namespace Flags

def asked (f : Flags) : Settings.Asked :=
  match f.config with
  | .text t => .byText t
  | _ => .not

def entries (f : Flags) : List (Value × Value) :=
  let set := fun (b : Bool) => if b then Value.bool true else .none
  [(Settings.Key.outputPath, f.output), (.append, set f.append), (.clamp, set f.clamp),
    (.metricsPath, f.metricsFile), (.logLevel, f.logLevel)].map fun e => (.text e.1.toText, e.2)

def settingsFile (f : Flags) (environment : Option Text) : Option Path :=
  Settings.fileFor f.asked environment

def settings (loader : Yaml.Loader) (f : Flags) (environment : Option Text)
    (read : Settings.Reading) : Except Failure Settings := do
  (← Settings.load loader (f.settingsFile environment) read).override f.entries

def refused (fault : UsageFault) : Prepared := .ended (.exits 2) (Usage.complaint fault)

def prepare (loader : Yaml.Loader) (f : Flags) (environment : Option Text)
    (read : Settings.Reading) : Prepared :=
  let loaded := fun limit => match f.settings loader environment read with
    | .ok s => Prepared.ready s limit
    | .error e =>
      if e.kind = .settings then
        .ended (.exits 1) (lit "Configuration error: " ++ e.message ++ [10])
      else .ended (.fails e) []
  match f.count with
  | .none => loaded none
  | .int n => if n < 1 then refused .countNotPositive else loaded (some n)
  | _ => .ended (.fails (.passed .unordered)) []

end Flags

def prepare (loader : Yaml.Loader) (words : List Text) (environment : Option Text)
    (read : Settings.Reading) (w : World) : Prepared × World :=
  match Request.ofTexts words with
  | .error f => (Flags.refused f, w)
  | .ok .help => say Usage.help w
  | .ok .version => say (Usage.program ++ lit " " ++ lit version ++ [10]) w
  | .ok (.run f) => (f.prepare loader environment read, w)

def logger : String := "hostsim"

def announce (s : Settings) (w : World) : RootLog × World :=
  let root := (RootLog.initial.setUp (.text s.logLevel.toText)).2
  (root, w.log .info logger
    (lit "Starting host telemetry simulation (output=" ++ s.outputPath.toText ++
      lit ", append=" ++ Text.ofBool s.append ++ lit ", clamp=" ++ Text.ofBool s.clamp ++ lit ")"))

def conclude (p : Progress) (w : World) : Ending × World :=
  match p with
  | .goesOn => (.runs, w)
  | .returned n =>
    (.exits 0, w.log .info logger (lit "Generated " ++ Text.ofNat n ++ lit " samples"))
  | .failed f =>
    if f.kind = .interrupt then (.exits 0, w.log .info logger (lit "Simulation interrupted"))
    else if f.isOwn then (.exits 1, w.log .error logger (lit "Fatal: " ++ f.message))
    else (.fails f, w)

/-- The generator of a run: its source starts from the clock. -/
def generatorOf (s : Settings) (now : Moment) : Generator AnySource AnyClock :=
  ⟨.ofSeed now.nanoseconds, .still now.localTime, s.clamp⟩

structure Invocation where
  words : List Text
  environment : Option Text
  schedule : Schedule
  span : Span
  logTime : Text

structure Outcome where
  ending : Ending
  stderr : Text
  root : RootLog
  stop : Stop
  world : World

/-- Runs a command line with two libraries, for at most `turns` turns. -/
def Invocation.run (loader : Yaml.Loader) (collector : Collector) (i : Invocation) (turns : Nat)
    (w : World) : Outcome :=
  match prepare loader i.words i.environment w.disk.read w with
  | (.ended e said, w) => ⟨e, said, .initial, .ofSchedule i.schedule, w⟩
  | (.ready s limit, w) =>
    let (root, v) := announce s w
    let (p, r) := Session.run collector s (generatorOf s i.span.opening) i.schedule .none limit
      i.span turns v
    let (e, v) := conclude p r.world
    ⟨e, root.written i.logTime (v.journal.drop w.journal.length), root, r.stop, v⟩

end HostTelemetry.CommandLine
