import HostTelemetry.Failure
import HostTelemetry.Log.Basic
import HostTelemetry.Outlet

/-!
# The sink

A sink keeps lines in a file and echoes each one to an outlet. A line is written without
buffering and brought to the disk before it is echoed, so what the outlet shows is on the disk.
When a write fails, what was written of the line is cut off again.
-/

set_option autoImplicit false

namespace HostTelemetry

structure World where
  disk : Disk
  stdout : Outlet
  journal : List LogLine

namespace World

def log (level : LevelName) (logger : String) (message : Text) (w : World) : World :=
  { w with journal := w.journal ++ [⟨level.number, lit logger, message⟩] }

end World

structure Sink where
  path : Path
  append : Bool
  /-- An outlet of its own; without one lines go to the standard output. -/
  outlet : Option Outlet
  file : Option Handle
  bytesWritten : Nat

/-- Passes a fault on as a failure: the one for it if it is of an expected kind. -/
def Fault.toFailure (expected : Fault → Bool) (wrap : Fault → Failure) (f : Fault) : Failure :=
  if expected f then wrap f else .passed f

def Fault.isExpected (f : Fault) : Bool := f.isSystem || f.isValue

namespace Sink

def make (path : Path) (append : Bool) (outlet : Option Outlet) : Sink :=
  ⟨path, append, outlet, none, 0⟩

def logger : String := "hostsim.exporters.sink"

def withPlan (plan : Plan) (s : Sink) : Sink :=
  { s with file := s.file.map fun h => { h with plan := plan } }

def acquire (s : Sink) (w : World) : Except Failure Unit × Sink × World :=
  match s.file with
  | some _ => (.ok (), s, w)
  | none =>
    match Handle.acquire s.path s.append w.disk with
    | .error f => (.error (f.toFailure Fault.isSystem (.cannotOpen s.path)), s, w)
    | .ok (h, d) =>
      let mode := if s.append then lit "a" else lit "w"
      let w := ({ w with disk := d }).log .info logger
        (lit "Writing samples to " ++ s.path.toText ++ lit " (mode=" ++ mode ++ lit ")")
      (.ok (), { s with file := some h }, w)

/-- Cuts the file back to where a line began. -/
def discard (offset : Nat) (h : Handle) (s : Sink) (w : World) : Except Failure Unit × Sink × World :=
  let (r, h, d) := h.truncate offset w.disk
  let s := { s with file := some h }
  let w := { w with disk := d }
  match r with
  | .ok _ => (.ok (), s, w)
  | .error f =>
    if f.isExpected then
      (.ok (), s, w.log .warning logger
        (lit "Could not remove partial record from " ++ s.path.toText ++ Failure.because f))
    else (.error (.passed f), s, w)

def echo (record : Text) (size : Nat) (s : Sink) (w : World) : Except Failure Nat × Sink × World :=
  let (r, o) := (s.outlet.getD w.stdout).send record
  let (s, w) : Sink × World :=
    if s.outlet.isSome then ({ s with outlet := some o }, w) else (s, { w with stdout := o })
  match r with
  | .error f => (.error (f.toFailure Fault.isExpected .cannotEcho), s, w)
  | .ok _ => (.ok size, { s with bytesWritten := s.bytesWritten + size }, w)

def persist (data : Bytes) (offset : Nat) (h : Handle) (s : Sink) (w : World) :
    Except Failure Unit × Sink × World :=
  let (r, h, d) := h.writeAll data w.disk
  let s := { s with file := some h }
  let w := { w with disk := d }
  match r with
  | .error f =>
    if f.isExpected then
      match s.discard offset h w with
      | (.ok _, s, w) => (.error (.cannotWrite s.path f), s, w)
      | (.error e, s, w) => (.error e, s, w)
    else (.error (.passed f), s, w)
  | .ok _ =>
    let (r, h) := h.sync
    let s := { s with file := some h }
    match r with
    | .error f => (.error (f.toFailure Fault.isSystem (.cannotFlush s.path)), s, w)
    | .ok _ => (.ok (), s, w)

def emit (line : Text) (s : Sink) (w : World) : Except Failure Nat × Sink × World :=
  match s.file with
  | none => (.error (.notOpen s.path), s, w)
  | some h =>
    let record := line ++ [10]
    match Utf8.encode record with
    | .error u => (.error (.passed (.unwritable .utf8 u)), s, w)
    | .ok data =>
      let (r, h) := h.tell
      let s := { s with file := some h }
      match r with
      | .error f => (.error (f.toFailure Fault.isExpected (.cannotWrite s.path)), s, w)
      | .ok offset =>
        match s.persist data offset h w with
        | (.error e, s, w) => (.error e, s, w)
        | (.ok _, s, w) => s.echo record data.length w

def release (s : Sink) : Except Failure Unit × Sink :=
  match s.file with
  | none => (.ok (), s)
  | some h =>
    let s := { s with file := none }
    match h.close with
    | .ok _ => (.ok (), s)
    | .error f => (.error (f.toFailure Fault.isExpected (.cannotClose s.path)), s)

/-- Lets go of the file at the end of a block. While a failure is in flight a failing close is
only logged. -/
def leave (inFlight : Bool) (s : Sink) (w : World) : Except Failure Unit × Sink × World :=
  match s.release with
  | (.ok _, s) => (.ok (), s, w)
  | (.error e, s) =>
    if inFlight ∧ e.kind = .flush then (.ok (), s, w.log .warning logger e.message)
    else (.error e, s, w)

def isClosed (s : Sink) : Bool := s.file.isNone

end Sink

end HostTelemetry
