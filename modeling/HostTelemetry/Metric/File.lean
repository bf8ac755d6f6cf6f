import HostTelemetry.Metric.Series
import HostTelemetry.Sink

/-!
# The metrics file

Reports are appended to a file, one line for each series. The file is made when it is acquired,
with the folders above it, and opened anew by every export.
-/

set_option autoImplicit false

namespace HostTelemetry

structure MetricFile where
  path : Path

namespace MetricFile

def logger : String := "hostsim.exporters.file_exporter"

/-- Makes the file unless it is there; one that is there is kept as it is. -/
def acquire (p : Path) (d : Disk) : Except Fault MetricFile × Disk :=
  match d.ensureFolder p.parent with
  | (.error f, d) => (.error f, d)
  | (.ok _, d) =>
    match d.acquire p true with
    | .error f => (.error f, d)
    | .ok (_, d) => (.ok ⟨p⟩, d)

def joined : List (Except Fault Text) → Except Fault Unit × Text
  | [] => (.ok (), [])
  | .error f :: _ => (.error f, [])
  | .ok l :: ls =>
    let (r, t) := joined ls
    (r, l ++ 10 :: t)

def asciiBytes (t : Text) : Bytes := t.map Nat.toUInt8

/-- Appends reports; the answer is whether the file could be opened. Lines before a fault stay. -/
def write (time : Text) (reports : List Report) (m : MetricFile) (w : World) :
    Except Fault Bool × World :=
  match w.disk.acquire m.path true with
  | .error f =>
    if f.isSystem then
      (.ok false, w.log .error logger (lit "Failed to export metrics to " ++ m.path.toText))
    else (.error f, w)
  | .ok (id, d) =>
    let (r, t) := joined (Report.lines time reports)
    (r.map fun _ => true, { w with disk := d.setContent id (d.content id ++ asciiBytes t) })

end MetricFile

end HostTelemetry
