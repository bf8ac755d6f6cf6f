import HostTelemetry.Metric.File
import HostTelemetry.Settings.Basic
import HostTelemetry.Simulation.Basic

/-!
# Sessions

A session runs a simulation as its settings say: it acquires the metrics file, if there is one,
and then the output file, runs, lets go of the output file, and exports the counters once,
however the run ended. Nothing is emptied before the metrics file is there. Reports on the way, of
which a long session makes one every few seconds, are left out.
-/

set_option autoImplicit false

namespace HostTelemetry

structure Moment where
  localTime : Stamp
  nanoseconds : Int

/-- When a session opens and when it closes. -/
structure Span where
  opening : Moment
  closing : Moment

structure MeterBook where
  file : MetricFile
  start : Int

structure Session where
  book : Option MeterBook

namespace Session

variable {γ : Type} [Producer γ]

def acquireBook (settings : Settings) (now : Moment) (w : World) :
    Except Failure (Option MeterBook) × World :=
  match settings.metricsPath with
  | none => (.ok none, w)
  | some p =>
    let (r, d) := MetricFile.acquire p w.disk
    let w := { w with disk := d }
    match r with
    | .error f => (.error (f.toFailure Fault.isSystem (.cannotOpenMetrics p)), w)
    | .ok file => (.ok (some ⟨file, now.nanoseconds⟩), w)

def simulationOf (settings : Settings) (producer : γ) : Simulation γ :=
  ⟨producer, Sink.make settings.outputPath settings.append none,
    settings.metricsPath.map fun _ => Meter.own⟩

/-- Exports what was counted. What goes wrong in writing it is nobody's failure. -/
def exportCounters (collector : Collector) (session : Session) (now : Moment)
    (meter : Option Meter) (w : World) : World :=
  match session.book, meter with
  | some book, some m =>
    match m.report collector book.start now.nanoseconds with
    | [] => w
    | reports => (book.file.write (now.localTime.render (cp 'T') .nonzero) reports w).2
  | _, _ => w

/-- Opens a session: the metrics file first, then the output file. Calls on the output file go as
the plan says. -/
def start (settings : Settings) (producer : γ) (schedule : Schedule) (plan : Plan) (now : Moment)
    (w : World) : Progress × Session × Run γ :=
  let simulation := simulationOf settings producer
  match acquireBook settings now w with
  | (.error f, w) => (.failed f, ⟨none⟩, .ofSchedule simulation w schedule)
  | (.ok book, w) =>
    let (r, sink, w) := simulation.sink.acquire w
    let run : Run γ := .ofSchedule { simulation with sink := sink.withPlan plan } w schedule
    match r with
    | .error f => (.failed f, ⟨book⟩, run)
    | .ok _ => (.goesOn, ⟨book⟩, run)

/-- Lets go of the output file; a failure to do so counts unless the run failed already. -/
def release (p : Progress) (r : Run γ) : Progress × Run γ :=
  let (left, sink, w) := r.simulation.sink.leave p.isFailed r.world
  let r := { r with simulation := { r.simulation with sink := sink }, world := w }
  match left with
  | .error f => (.failed f, r)
  | .ok _ => (p, r)

def close (collector : Collector) (session : Session) (now : Moment) (p : Progress) (r : Run γ) :
    Progress × Run γ :=
  let (p, r) := release p r
  (p, { r with world := session.exportCounters collector now r.simulation.meter r.world })

def run (collector : Collector) (settings : Settings) (producer : γ) (schedule : Schedule)
    (plan : Plan) (limit : Option Int) (span : Span) (turns : Nat) (w : World) :
    Progress × Run γ :=
  match start settings producer schedule plan span.opening w with
  | (.goesOn, session, r) =>
    let (p, r) := r.go limit turns
    session.close collector span.closing p r
  | (ended, session, r) => session.close collector span.closing ended r

end Session

end HostTelemetry
