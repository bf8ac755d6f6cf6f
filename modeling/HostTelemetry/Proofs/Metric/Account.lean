import HostTelemetry.Metric.File
import HostTelemetry.Json.Printer
import HostTelemetry.Proofs.Metric.Meter
import Mathlib

/-!
# Accounts

What a simulation has counted for its output comes to one line of the metrics file for each
counter, and to none if nothing was counted.
-/

set_option autoImplicit false

namespace HostTelemetry

theorem Told.total_eq (t : Told) : t.total = (t.amounts.map Prod.snd).sum := by
  rw [total, List.sum_eq_foldl, List.foldl_map]

theorem Sink.written_length (lines : List Text) :
    (written lines).length = (lines.map fun line => (bytesOf line).length).sum := by
  rw [written, List.length_flatMap]

structure Account where
  output : Text
  samples : Nat
  bytes : Nat
  resource : Attributes
  start : Instrument → Int
  time : Int
  moment : Text

namespace Account

def entry (a : Account) (i : Instrument) (n : Nat) : Json :=
  .object [(lit "name", .text (lit i.name)), (lit "description", .text (lit i.description)),
    (lit "unit", .text (lit i.unit)),
    (lit "resource", .object (a.resource.map fun kv => (kv.1, .text kv.2))),
    (lit "timestamp", .text a.moment),
    (lit "data_points", .array [.object [
      (lit "attributes", .object [(lit "hostsim.output", .text a.output)]),
      (lit "start_time", .int (a.start i)), (lit "time", .int a.time), (lit "value", .int n)]])]

def entries (a : Account) : List Json :=
  if a.samples = 0 then []
  else
    [a.entry ⟨"hostsim.samples.emitted", "Count of samples written to the sink", "1"⟩ a.samples,
      a.entry ⟨"hostsim.bytes.written", "Bytes of JSON Lines output written to the file", "By"⟩
        a.bytes]

def text (a : Account) : Text := a.entries.flatMap fun e => Json.render Json.spaced e ++ [10]

def print (a : Account) : Bytes := MetricFile.asciiBytes a.text

structure Printable (a : Account) : Prop where
  samples : a.samples < 10 ^ maxDigits
  bytes : a.bytes < 10 ^ maxDigits
  start : ∀ i ∈ [Meter.samples, Meter.bytes], (a.start i).natAbs < 10 ^ maxDigits
  time : a.time.natAbs < 10 ^ maxDigits

/-- What a collector makes of some lines. -/
structure Covers (a : Account) (collector : Collector) (opening closing : Int)
    (lines : List Text) : Prop where
  samples : a.samples = lines.length
  bytes : a.bytes = (Sink.written lines).length
  resource : a.resource = collector.resource Meter.own.attributes
  start : a.start = collector.start opening closing
  time : a.time = collector.time opening closing

end Account

namespace Value

variable {f : DoubleFormat}

theorem toJson_int {n : Int} (h : n.natAbs < 10 ^ maxDigits) : toJson f (.int n) = .ok (.int n) := by
  have htext : intText n = .ok (Text.ofInt n) := by
    rw [intText, Nat.pow_eq]
    exact if_pos h
  rw [toJson, htext]
  rfl

theorem toJson_text (t : Text) : toJson f (.text t) = .ok (.text t) := by rw [toJson]

theorem toJsonMembers_nil : toJsonMembers f [] = .ok [] := by rw [toJsonMembers]

theorem toJsonMembers_cons {k : Text} {v : Value} {x : Json} {kvs : List (Value × Value)}
    {ms : List (Text × Json)} (hv : toJson f v = .ok x) (hkvs : toJsonMembers f kvs = .ok ms) :
    toJsonMembers f ((.text k, v) :: kvs) = .ok ((k, x) :: ms) := by
  rw [toJsonMembers, memberKey, hv, hkvs]
  rfl

theorem toJson_dict {kvs : List (Value × Value)} {ms : List (Text × Json)}
    (h : toJsonMembers f kvs = .ok ms) : toJson f (.dict kvs) = .ok (.object ms) := by
  rw [toJson, h]
  rfl

theorem toJson_singleton {v : Value} {x : Json} (h : toJson f v = .ok x) :
    toJson f (.list [v]) = .ok (.array [x]) := by
  rw [toJson, toJsonAll, h, toJsonAll]
  rfl

end Value

namespace Account

open Value

theorem values_json (resource : Attributes) :
    toJsonMembers Json.numberFormat resource.values =
      .ok (resource.map fun kv => (kv.1, .text kv.2)) := by
  induction resource with
  | nil => exact toJsonMembers_nil
  | cons kv resource ih => exact toJsonMembers_cons (toJson_text kv.2) ih

theorem series_line {a : Account} (printable : a.Printable) (t : Told) {n : Nat}
    (instrument : t.instrument ∈ [Meter.samples, Meter.bytes])
    (total : t.total = n) (small : n < 10 ^ maxDigits) :
    (t.series a.output (a.start t.instrument) a.time).line a.resource.values a.moment =
      .ok (Json.render Json.spaced (a.entry t.instrument n)) := by
  have hresource := toJson_dict (values_json a.resource)
  have hattributes := toJson_dict (toJsonMembers_cons (k := lit "hostsim.output")
    (toJson_text (f := Json.numberFormat) a.output) toJsonMembers_nil)
  have hpoint := toJson_dict (toJsonMembers_cons (k := lit "attributes") hattributes
    (toJsonMembers_cons (k := lit "start_time") (toJson_int (printable.start _ instrument))
      (toJsonMembers_cons (k := lit "time") (toJson_int printable.time)
        (toJsonMembers_cons (k := lit "value")
          (toJson_int (by rwa [Int.natAbs_natCast])) toJsonMembers_nil))))
  have hseries := toJson_dict (toJsonMembers_cons (k := lit "name")
    (toJson_text (lit t.instrument.name))
    (toJsonMembers_cons (k := lit "description") (toJson_text (lit t.instrument.description))
      (toJsonMembers_cons (k := lit "unit") (toJson_text (lit t.instrument.unit))
        (toJsonMembers_cons (k := lit "resource") hresource
          (toJsonMembers_cons (k := lit "timestamp") (toJson_text a.moment)
            (toJsonMembers_cons (k := lit "data_points") (toJson_singleton hpoint)
              toJsonMembers_nil))))))
  subst total
  exact congrArg (Except.map (Json.render Json.spaced)) hseries

/-- What is reported of some lines is the account of their number and their bytes. -/
theorem report_lines {a : Account} {collector : Collector} {opening closing : Int}
    {lines : List Text} (lawful : collector.Lawful) (printable : a.Printable)
    (covers : a.Covers collector opening closing lines) :
    Report.lines a.moment ((Meter.counting a.output lines).report collector opening closing) =
      a.entries.map fun e => .ok (Json.render Json.spaced e) := by
  have houtput := Meter.counting_output a.output lines
  rw [Meter.report]
  rw [Meter.counting_told] at houtput ⊢
  cases lines with
  | nil =>
    have hnone : a.entries = [] := if_pos covers.samples
    rw [lawful.idle, hnone]
    · rfl
    · simp
  | cons line lines =>
    have hsome : a.samples ≠ 0 := by
      rw [covers.samples]
      exact Nat.succ_ne_zero _
    have hcount := series_line printable
      ⟨Meter.samples, (line :: lines).map fun _ => (a.output, 1)⟩ (by simp)
      (by simp [Told.total_eq, covers.samples, Nat.add_comm]) printable.samples
    have hsize := series_line printable
      ⟨Meter.bytes, (line :: lines).map fun l => (a.output, (Sink.bytesOf l).length)⟩ (by simp)
      (by simp [Told.total_eq, covers.bytes, Sink.written_length, Function.comp_def]) printable.bytes
    rw [lawful.collect_output _ _ _ _ _ houtput ⟨_, List.mem_cons_self, by simp⟩]
    rw [covers.resource, covers.start, covers.time] at hcount hsize
    rw [entries, if_neg hsome]
    exact congrArg₂ (fun first last => [first, last]) hcount hsize

theorem joined_ok (es : List Json) :
    MetricFile.joined (es.map fun e => .ok (Json.render Json.spaced e)) =
      (.ok (), es.flatMap fun e => Json.render Json.spaced e ++ [10]) := by
  induction es with
  | nil => rfl
  | cons e es ih => simp [MetricFile.joined, ih]

end Account

end HostTelemetry
