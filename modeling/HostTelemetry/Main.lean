import HostTelemetry.CommandLine.Run
import HostTelemetry.Metric.Counter
import Std.Async.Signal
import Std.Time.Zoned

/-!
# The command

Runs a command line on the real files, clocks and streams. What a turn does is computed in a world
that holds nothing but what the turn itself writes; after each turn its bytes go to the files, and
its texts to the standard streams. An interrupt is looked for while the command waits.
-/

set_option autoImplicit false

namespace HostTelemetry.Main

def collector : Collector := .totals []

def stringOf (t : Text) : String := String.ofList (t.map Char.ofNat)

def bytesOf (bs : Bytes) : ByteArray := ⟨bs.toArray⟩

def codeOf : IO.Error → Nat
  | .alreadyExists _ n _ | .otherError n _ | .resourceBusy n _ | .resourceVanished n _
  | .unsupportedOperation n _ | .hardwareFault n _ | .unsatisfiedConstraints n _
  | .illegalOperation n _ | .protocolError n _ | .timeExpired n _ | .interrupted _ n _
  | .noFileOrDirectory _ n _ | .invalidArgument _ n _ | .permissionDenied _ n _
  | .resourceExhausted _ n _ | .inappropriateType _ n _ | .noSuchThing _ n _ => n.toNat
  | _ => 5

def moment : IO Moment := do
  let now ← Std.Time.DateTime.now
  let plain := now.toPlainDateTime
  let zone := match Offset.make? (now.offset.second.val * 1000000) with
    | .ok o => Zone.fixed o
    | .error _ => .none
  let stamp := Stamp.make? plain.date.year.toNat plain.date.month.val.toNat
    plain.date.day.val.toNat plain.time.hour.val.toNat plain.time.minute.val.toNat
    plain.time.second.val.toNat (plain.time.nanosecond.val.toNat / 1000) zone
  match stamp with
  | .ok s => pure ⟨s, now.toTimestamp.toNanosecondsSinceUnixEpoch.val⟩
  | .error _ => throw (IO.userError "The clock shows no time that can be written")

def attempt {α : Type} (p : Path) (action : IO α) : IO (Except Fault α) := do
  match ← action.toBaseIO with
  | .ok a => pure (.ok a)
  | .error e => pure (.error (.system (codeOf e) (some p.toText)))

def readBytes (p : Path) : IO (Except Fault Bytes) :=
  attempt p do return (← IO.FS.readBinFile (stringOf p.toText)).toList

structure Files where
  output : IO.FS.Handle
  metrics : Option IO.FS.Handle

def openMetrics (s : Settings) : IO (Except Failure (Option IO.FS.Handle)) := do
  match s.metricsPath with
  | none => return .ok none
  | some p =>
    let opened ← attempt p do
      IO.FS.createDirAll (stringOf p.parent.toText)
      IO.FS.Handle.mk (stringOf p.toText) .append
    match opened with
    | .ok h => return .ok (some h)
    | .error f => return .error (.cannotOpenMetrics p f)

def openFiles (s : Settings) : IO (Except Failure Files) := do
  match ← openMetrics s with
  | .error e => return .error e
  | .ok metrics =>
    let mode := if s.append then IO.FS.Mode.append else .write
    match ← attempt s.outputPath (IO.FS.Handle.mk (stringOf s.outputPath.toText) mode) with
    | .ok output => return .ok ⟨output, metrics⟩
    | .error f => return .error (.cannotOpen s.outputPath f)

def logTime (s : Stamp) : Text :=
  s.date.toText ++ 32 :: ({ s.time with micro := 0, micro_lt := Nat.succ_pos _ }).toText .nonzero ++
    cp ',' :: Text.padded 3 (s.time.micro / 1000)

def showLog (root : RootLog) (w : World) : IO World := do
  let now ← moment
  (← IO.getStderr).putStr (stringOf (root.written (logTime now.localTime) w.journal))
  return { w with journal := [] }

def showText (w : World) : IO World := do
  let out ← IO.getStdout
  out.putStr (stringOf w.stdout.text)
  out.flush
  return { w with stdout := { w.stdout with text := [] } }

/-- Writes the bytes that a world has for a path, and takes them from it. -/
def drain (p : Path) (h : IO.FS.Handle) (w : World) : IO (Except Fault World) := do
  match w.disk.acquire p true with
  | .error f => return .error f
  | .ok (id, d) =>
    match ← attempt p (do h.write (bytesOf (d.content id)); h.flush) with
    | .error f => return .error f
    | .ok _ => return .ok { w with disk := d.setContent id [] }

abbrev CommandRun := Run (Generator AnySource AnyClock)

/-- Writes what a turn has left, and puts the position of the output back to where nothing is. -/
def settle (s : Settings) (files : Files) (root : RootLog) (r : CommandRun) :
    IO (Except Failure CommandRun) := do
  match ← drain s.outputPath files.output r.world with
  | .error f => return .error (.cannotWrite s.outputPath f)
  | .ok w =>
    let w ← showLog root (← showText w)
    let sink := { r.simulation.sink with
      file := r.simulation.sink.file.map fun h => { h with position := 0 } }
    return .ok { r with
      simulation := { r.simulation with sink := sink }, world := w, stop := .ofSchedule .never }

def pause (interrupted : IO Bool) : Nat → IO Bool
  | 0 => interrupted
  | n + 1 => do
    if ← interrupted then return true
    IO.sleep 20
    pause interrupted n

partial def turns (s : Settings) (limit : Option Int) (files : Files) (root : RootLog)
    (interrupted : IO Bool) (r : CommandRun) : IO (Progress × CommandRun) := do
  let now ← moment
  let producer := { r.simulation.producer with clock := AnyClock.still now.localTime }
  let (p, r) := Run.turn limit { r with simulation := { r.simulation with producer := producer } }
  match ← settle s files root r with
  | .error f => return (.failed f, r)
  | .ok r =>
    match p with
    | .goesOn =>
      if ← pause interrupted 50 then return (.failed (.passed .interrupt), r)
      turns s limit files root interrupted r
    | ended => return (ended, r)

/-- A world with nothing but the folder of the output file. -/
def bareWorld (s : Settings) : World :=
  ⟨(Disk.empty.ensureFolder s.outputPath.parent).2, .ofKind .unicode, []⟩

def exitCode (e : CommandLine.Ending) : IO UInt32 := do
  match e with
  | .exits n => return n.toUInt32
  | .fails f =>
    (← IO.getStderr).putStrLn (stringOf f.message)
    return 1
  | .runs => return 1

def exit (root : RootLog) (p : Progress) (w : World) : IO UInt32 := do
  let (e, w) := CommandLine.conclude p w
  let _ ← showLog root w
  exitCode e

def session (s : Settings) (limit : Option Int) (interrupted : IO Bool) : IO UInt32 := do
  let (root, w) := CommandLine.announce s (bareWorld s)
  let w ← showLog root w
  let now ← moment
  match ← openFiles s with
  | .error f => exit root (.failed f) w
  | .ok files =>
    let (p, book, r) := Session.start s (CommandLine.generatorOf s now) .never .none now w
    let r := { r with world := ← showLog root r.world }
    let (p, r) ← match p with
      | .goesOn => turns s limit files root interrupted r
      | ended => pure (ended, r)
    let (p, r) := book.close collector (← moment) p r
    match ← settle s files root r with
    | .error f => exit root (.failed f) r.world
    | .ok r =>
      match s.metricsPath, files.metrics with
      | some path, some h => let _ ← drain path h r.world
      | _, _ => pure ()
      exit root p r.world

def run (words : List String) : IO UInt32 := do
  let signal ← (← Std.Async.Signal.Waiter.mk .sigint false).wait
  let words := words.map lit
  let environment := (← IO.getEnv "HOSTSIM_CONFIG").map lit
  let content ← match CommandLine.Request.ofTexts words with
    | .ok (.run f) => match f.settingsFile environment with
      | some p => readBytes p
      | none => pure (.ok [])
    | _ => pure (.ok [])
  let w : World := ⟨.empty, .ofKind .unicode, []⟩
  match CommandLine.prepare Yaml.usualReader words environment (fun _ => content) w with
  | (.ended e said, w) =>
    let _ ← showText w
    (← IO.getStderr).putStr (stringOf said)
    exitCode e
  | (.ready s limit, _) => session s limit (IO.hasFinished signal)

end HostTelemetry.Main

def main (words : List String) : IO UInt32 := HostTelemetry.Main.run words
