import HostTelemetry.Metric.Series

/-!
# Collectors

A library that counts for others. A counter is told amounts, each for an output; at the end of a
session the library reports the totals, under a resource to which it adds attributes of its own and
at times that it reads itself. A counter that was told nothing is not reported.
-/

set_option autoImplicit false

namespace HostTelemetry

structure Instrument where
  name : String
  description : String
  unit : String

structure Told where
  instrument : Instrument
  amounts : List (Text × Nat)

namespace Told

def outputKey : Value := .text (lit "hostsim.output")

def total (t : Told) : Nat := t.amounts.foldl (fun n p => n + p.2) 0

def series (t : Told) (output : Text) (start time : Int) : Series :=
  ⟨.text (lit t.instrument.name), .text (lit t.instrument.description),
    .text (lit t.instrument.unit),
    [⟨[(outputKey, .text output)], .int start, .int time, .int t.total⟩]⟩

end Told

/-- Texts that are no part of a pair of surrogates. -/
def Text.IsPlain (t : Text) : Prop := ∀ c ∈ t, c < 0x110000 ∧ ¬c.IsHighSurrogate

abbrev Attributes := List (Text × Text)

namespace Attributes

def values (a : Attributes) : List (Value × Value) := a.map fun kv => (.text kv.1, .text kv.2)

structure Proper (a : Attributes) : Prop where
  nodup : (a.map Prod.fst).Nodup
  plain : ∀ kv ∈ a, kv.1.IsPlain ∧ kv.2.IsPlain

end Attributes

/-- The times are given when the session opened and when it closed, in nanoseconds. -/
structure Collector where
  resource : Attributes → Attributes
  start : (opening closing : Int) → Instrument → Int
  time : (opening closing : Int) → Int
  collect : Attributes → (opening closing : Int) → List Told → List Report

namespace Collector

def Idle (c : Collector) : Prop :=
  ∀ a opening closing told, (∀ t ∈ told, t.amounts = []) → c.collect a opening closing told = []

/-- Counters are summed up, and those that were told nothing are left out. -/
structure Lawful (c : Collector) : Prop where
  idle : c.Idle
  resource_proper : ∀ a, a.Proper → (c.resource a).Proper
  resource_keeps : ∀ a, ∀ kv ∈ a, kv.2 ≠ [] → kv ∈ c.resource a
  collect_output : ∀ a opening closing output told,
    (∀ t ∈ told, ∀ p ∈ t.amounts, p.1 = output) → (∃ t ∈ told, t.amounts ≠ []) →
      c.collect a opening closing told = [⟨(c.resource a).values,
        (told.filter fun t => !t.amounts.isEmpty).map fun t =>
          t.series output (c.start opening closing t.instrument) (c.time opening closing)⟩]

end Collector

end HostTelemetry
