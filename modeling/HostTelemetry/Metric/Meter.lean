import HostTelemetry.Metric.Collector

/-!
# The meter of a simulation

Two counters: samples emitted, and bytes written. Each emitted line counts as one sample and as
its bytes, for the output it went to. What becomes of the counts is up to a collector.
-/

set_option autoImplicit false

namespace HostTelemetry

def version : String := "1.0.0"

structure Meter where
  service : Text
  /-- The output and the size of each line that was counted. -/
  recorded : List (Text × Nat)

namespace Meter

def make (service : Text) : Meter := ⟨service, []⟩

def own : Meter := make (lit "hostsim")

def scope : String := "hostsim.instrumentation"

def samples : Instrument :=
  ⟨"hostsim.samples.emitted", "Count of samples written to the sink", "1"⟩

def bytes : Instrument :=
  ⟨"hostsim.bytes.written", "Bytes of JSON Lines output written to the file", "By"⟩

def record (size : Nat) (output : Text) (m : Meter) : Meter :=
  { m with recorded := m.recorded ++ [(output, size)] }

def told (m : Meter) : List Told :=
  [⟨samples, m.recorded.map fun r => (r.1, 1)⟩, ⟨bytes, m.recorded⟩]

def attributes (m : Meter) : Attributes :=
  [(lit "service.name", m.service), (lit "service.version", lit version)]

/-- A report of all that was counted between two times in nanoseconds, if there is anything. -/
def report (collector : Collector) (opening closing : Int) (m : Meter) : List Report :=
  collector.collect m.attributes opening closing m.told

end Meter

end HostTelemetry
