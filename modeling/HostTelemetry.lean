import HostTelemetry.Calendar
import HostTelemetry.CommandLine.Request
import HostTelemetry.CommandLine.Run
import HostTelemetry.CommandLine.Switch
import HostTelemetry.CommandLine.Usage
import HostTelemetry.CommandLine.Word
import HostTelemetry.Disk.Basic
import HostTelemetry.Disk.Handle
import HostTelemetry.Distribution
import HostTelemetry.Double.Arithmetic
import HostTelemetry.Double.Basic
import HostTelemetry.Double.Decimal
import HostTelemetry.Double.Printer
import HostTelemetry.Double.Reader
import HostTelemetry.Failure
import HostTelemetry.Fault
import HostTelemetry.Generator
import HostTelemetry.Integer
import HostTelemetry.Json.Basic
import HostTelemetry.Json.Printer
import HostTelemetry.Json.Reader
import HostTelemetry.Log.Basic
import HostTelemetry.Log.Root
import HostTelemetry.Main
import HostTelemetry.Metric.Collector
import HostTelemetry.Metric.Counter
import HostTelemetry.Metric.File
import HostTelemetry.Metric.Meter
import HostTelemetry.Metric.Series
import HostTelemetry.Number
import HostTelemetry.Outlet
import HostTelemetry.Path
import HostTelemetry.Proofs.CommandLine.Early
import HostTelemetry.Proofs.CommandLine.Layers
import HostTelemetry.Proofs.CommandLine.Reports
import HostTelemetry.Proofs.Disk.Frame
import HostTelemetry.Proofs.Disk.Gain
import HostTelemetry.Proofs.Disk.Lines
import HostTelemetry.Proofs.Disk.Opening
import HostTelemetry.Proofs.Disk.Tape
import HostTelemetry.Proofs.Distribution.Bounded
import HostTelemetry.Proofs.Distribution.Range
import HostTelemetry.Proofs.Double.Nearest
import HostTelemetry.Proofs.Double.Overflow
import HostTelemetry.Proofs.Double.Shortest
import HostTelemetry.Proofs.Generator.Alignment
import HostTelemetry.Proofs.Generator.Clamping
import HostTelemetry.Proofs.Json.Form
import HostTelemetry.Proofs.Json.Limits
import HostTelemetry.Proofs.Json.Number
import HostTelemetry.Proofs.Json.Object
import HostTelemetry.Proofs.Json.String
import HostTelemetry.Proofs.Json.Token
import HostTelemetry.Proofs.Json.Visible
import HostTelemetry.Proofs.Metric.Account
import HostTelemetry.Proofs.Metric.Meter
import HostTelemetry.Proofs.Metric.Total
import HostTelemetry.Proofs.Metric.Totals
import HostTelemetry.Proofs.Outcome
import HostTelemetry.Proofs.Random.Draws
import HostTelemetry.Proofs.Record.Canonical
import HostTelemetry.Proofs.Record.Distinct
import HostTelemetry.Proofs.Record.Layout
import HostTelemetry.Proofs.Record.Refusal
import HostTelemetry.Proofs.Record.RoundTrip
import HostTelemetry.Proofs.Settings.Layer
import HostTelemetry.Proofs.Settings.Loading
import HostTelemetry.Proofs.Settings.Overrides
import HostTelemetry.Proofs.Settings.Stable
import HostTelemetry.Proofs.Simulation.Appending
import HostTelemetry.Proofs.Simulation.Aside
import HostTelemetry.Proofs.Simulation.Books
import HostTelemetry.Proofs.Simulation.Cadence
import HostTelemetry.Proofs.Simulation.Growth
import HostTelemetry.Proofs.Simulation.Interrupt
import HostTelemetry.Proofs.Simulation.Ledger
import HostTelemetry.Proofs.Simulation.Limit
import HostTelemetry.Proofs.Simulation.Replay
import HostTelemetry.Proofs.Simulation.Session
import HostTelemetry.Proofs.Simulation.Start
import HostTelemetry.Proofs.Simulation.Taxonomy
import HostTelemetry.Proofs.Simulation.Unopened
import HostTelemetry.Proofs.Sink.Elsewhere
import HostTelemetry.Proofs.Sink.Failing
import HostTelemetry.Proofs.Sink.Fate
import HostTelemetry.Proofs.Sink.Framing
import HostTelemetry.Proofs.Sink.Life
import HostTelemetry.Proofs.Sink.Mirror
import HostTelemetry.Proofs.Sink.Rollback
import HostTelemetry.Proofs.Stamp.RoundTrip
import HostTelemetry.Proofs.Text.Ascii
import HostTelemetry.Proofs.Text.Digits
import HostTelemetry.Proofs.Text.Order
import HostTelemetry.Proofs.Text.Utf8
import HostTelemetry.Proofs.Value.Shown
import HostTelemetry.Proofs.Yaml.Building
import HostTelemetry.Proofs.Yaml.Composing
import HostTelemetry.Proofs.Yaml.Cursor
import HostTelemetry.Proofs.Yaml.Lexing
import HostTelemetry.Proofs.Yaml.Reading
import HostTelemetry.Proofs.Yaml.Scalar
import HostTelemetry.Random.Source
import HostTelemetry.Random.Twister
import HostTelemetry.Record
import HostTelemetry.Sample
import HostTelemetry.Settings.Basic
import HostTelemetry.Settings.File
import HostTelemetry.Simulation.Basic
import HostTelemetry.Simulation.Session
import HostTelemetry.Simulation.Stop
import HostTelemetry.Sink
import HostTelemetry.Stamp.Basic
import HostTelemetry.Stamp.Printer
import HostTelemetry.Stamp.Reader
import HostTelemetry.Text.Basic
import HostTelemetry.Text.Blank
import HostTelemetry.Text.Capital
import HostTelemetry.Text.Lower
import HostTelemetry.Text.Printable
import HostTelemetry.Text.Quoted
import HostTelemetry.Text.Stream
import HostTelemetry.Text.Utf8
import HostTelemetry.Value.Basic
import HostTelemetry.Value.Json
import HostTelemetry.Value.Printer
import HostTelemetry.Value.Reader
import HostTelemetry.Yaml.Block
import HostTelemetry.Yaml.Cursor
import HostTelemetry.Yaml.Document
import HostTelemetry.Yaml.Kind
import HostTelemetry.Yaml.Lexer
import HostTelemetry.Yaml.Loader
import HostTelemetry.Yaml.Node
import HostTelemetry.Yaml.Pattern
import HostTelemetry.Yaml.Plain
import HostTelemetry.Yaml.Quoted
import HostTelemetry.Yaml.Scalar
import HostTelemetry.Yaml.Tag
import HostTelemetry.Yaml.Token
