import HostTelemetry.Failure
import HostTelemetry.Json.Printer
import HostTelemetry.Json.Reader
import HostTelemetry.Sample
import HostTelemetry.Stamp.Reader
import HostTelemetry.Value.Json

/-!
# Records

A record is four finite metrics and an aware time. A sample is a candidate for one: its fields
can be anything. A record has one line, a JSON object with the fields in a fixed order; a line is
read in any order and layout, and is refused if a field is missing, unknown or of the wrong kind.
-/

set_option autoImplicit false

namespace HostTelemetry

abbrev Metric := { d : Double // d.isFinite = true }

structure Record where
  cpu : Metric
  memory : Metric
  disk : Metric
  network : Metric
  date : Date
  time : TimeOfDay
  offset : Offset
  deriving DecidableEq

namespace Record

def metricNames : List Text := [lit "cpu", lit "memory", lit "disk", lit "network"]

def fieldNames : List Text := metricNames ++ [lit "time"]

def finite (f : Failure) (d : Double) : Except Failure Metric :=
  if h : d.isFinite then .ok ⟨d, h⟩ else .error f

/-- The metric that a field holds; a truth value is none. -/
def metric (name : Text) : Value → Except Failure Metric
  | .int n => finite (.passed .tooLargeForDouble) ((Double.ofInt? n).getD .nan)
  | .double d => finite (.notFinite name d.toText) d
  | v => .error (.notANumber name v.typeName)

/-- The record of a sample; the fields are checked in order. -/
def ofSample (s : Sample) : Except Failure Record := do
  let cpu ← metric (lit "cpu") s.cpu
  let memory ← metric (lit "memory") s.memory
  let disk ← metric (lit "disk") s.disk
  let network ← metric (lit "network") s.network
  match s.time with
  | .stamp t =>
    match t.offset? with
    | some o => pure ⟨cpu, memory, disk, network, t.date, t.time, o⟩
    | none => .error .notAware
  | v => .error (.notAStamp v.typeName)

def stamp (r : Record) : Stamp := ⟨r.date, r.time, .fixed r.offset⟩

def toSample (r : Record) : Sample :=
  ⟨.double r.cpu.1, .double r.memory.1, .double r.disk.1, .double r.network.1, .stamp r.stamp⟩

def toJson (r : Record) : Json :=
  .object [(lit "cpu", .double r.cpu.1), (lit "memory", .double r.memory.1),
    (lit "disk", .double r.disk.1), (lit "network", .double r.network.1),
    (lit "time", .text (r.stamp.render (cp 'T') .always))]

def line (r : Record) : Text := Json.render Json.dense r.toJson

def timeOf : Json → Except Failure (Date × TimeOfDay × Offset)
  | .text t =>
    match Stamp.read? t with
    | none => .error (.notATimeText t)
    | some s =>
      match s.offset? with
      | some o => .ok (s.date, s.time, o)
      | none => .error (.noOffset t)
  | v =>
    match (Value.ofJson v).shown with
    | .ok s => .error (.notATime s)
    | .error f => .error (.passed f)

def ofMembers (members : List (Text × Json)) : Except Failure Record := do
  let missing := fieldNames.filter fun n => (lookup? n members).isNone
  let unknown := (members.map Prod.fst).filter fun n => !fieldNames.contains n
  if !missing.isEmpty then .error (.missingFields missing)
  else if !unknown.isEmpty then .error (.unknownFields (Text.sort unknown))
  else
    let field := fun n => (lookup? n members).getD .null
    let number := fun n => metric n (Value.ofJson (field n))
    let cpu ← number (lit "cpu")
    let memory ← number (lit "memory")
    let disk ← number (lit "disk")
    let network ← number (lit "network")
    let (date, time, offset) ← timeOf (field (lit "time"))
    pure ⟨cpu, memory, disk, network, date, time, offset⟩

/-- Containers may stand in each other, at most `room` of them inside the outermost one. -/
def read (room : Nat) (t : Text) : Except Failure Record :=
  match Json.read (room + 1) t with
  | .error (.json f p) => .error (.notJson f p)
  | .error f => .error (.passed f)
  | .ok (.object members) => ofMembers members
  | .ok _ => .error .notAnObject

end Record

namespace Sample

def encode (s : Sample) : Except Failure Text := (Record.ofSample s).map Record.line

end Sample

end HostTelemetry
