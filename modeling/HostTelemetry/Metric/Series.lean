import HostTelemetry.Value.Json
import HostTelemetry.Json.Printer
import HostTelemetry.Stamp.Printer

/-!
# Series

A series is what one metric says at one time: its name and points, each with attributes, a span
of time and a value. A report holds series by the resource they come from. Every series becomes
one line of JSON.
-/

set_option autoImplicit false

namespace HostTelemetry

structure Point where
  attributes : List (Value × Value)
  start : Value
  time : Value
  value : Value

structure Series where
  name : Value
  description : Value
  unit : Value
  points : List Point

structure Report where
  resource : List (Value × Value)
  series : List Series

namespace Point

def toValue (p : Point) : Value :=
  .dict [(.text (lit "attributes"), .dict p.attributes), (.text (lit "start_time"), p.start),
    (.text (lit "time"), p.time), (.text (lit "value"), p.value)]

end Point

namespace Series

def toValue (resource : List (Value × Value)) (time : Text) (s : Series) : Value :=
  .dict [(.text (lit "name"), s.name), (.text (lit "description"), s.description),
    (.text (lit "unit"), s.unit), (.text (lit "resource"), .dict resource),
    (.text (lit "timestamp"), .text time),
    (.text (lit "data_points"), .list (s.points.map Point.toValue))]

def line (resource : List (Value × Value)) (time : Text) (s : Series) : Except Fault Text :=
  ((s.toValue resource time).toJson Json.numberFormat).map (Json.render Json.spaced)

end Series

namespace Report

/-- The lines of some reports, each of them perhaps a fault. -/
def lines (time : Text) (reports : List Report) : List (Except Fault Text) :=
  reports.flatMap fun r => r.series.map (Series.line r.resource time)

end Report

end HostTelemetry
