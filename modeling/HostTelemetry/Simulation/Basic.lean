import HostTelemetry.Generator
import HostTelemetry.Metric.Meter
import HostTelemetry.Record
import HostTelemetry.Simulation.Stop
import HostTelemetry.Sink

/-!
# Simulations

A step makes a sample, keeps its line and counts it. A run takes turns of a step and a wait of one
second, until it is told to stop, or the limit is reached, or something fails. Whether to stop is
asked before a step, the limit is looked at after it.
-/

set_option autoImplicit false

namespace HostTelemetry

structure Simulation (γ : Type) where
  producer : γ
  sink : Sink
  meter : Option Meter

namespace Simulation

variable {γ : Type} [Producer γ]

def logger : String := "hostsim.runner"

def count (size : Nat) (s : Simulation γ) : Simulation γ :=
  { s with meter := s.meter.map (Meter.record size s.sink.path.toText) }

/-- Makes one sample and keeps its line; the answer is the line. -/
def step (s : Simulation γ) (w : World) : Except Failure Text × Simulation γ × World :=
  let (made, p) := Producer.produce s.producer
  let s := { s with producer := p }
  match made.bind Sample.encode with
  | .error f => (.error f, s, w)
  | .ok line =>
    let (kept, sink, w) := s.sink.emit line w
    let s := { s with sink := sink }
    match kept with
    | .error f => (.error f, s, w)
    | .ok size => (.ok line, s.count size, w)

end Simulation

inductive Progress
  | goesOn
  | returned (samples : Nat)
  | failed (f : Failure)
  deriving DecidableEq, Repr

def Progress.isFailed : Progress → Bool
  | .failed _ => true
  | _ => false

structure Run (γ : Type) where
  simulation : Simulation γ
  world : World
  stop : Stop
  emitted : Nat

namespace Run

variable {γ : Type} [Producer γ]

def interval : Double := Double.ofRatio false 1 1

def ofSchedule (s : Simulation γ) (w : World) (schedule : Schedule) : Run γ :=
  ⟨s, w, .ofSchedule schedule, 0⟩

def isFull (limit : Option Int) (emitted : Nat) : Bool :=
  match limit with
  | none => false
  | some n => n ≤ (emitted : Int)

def finish (r : Run γ) : Progress × Run γ :=
  let said := lit "Simulation stopped after " ++ Text.ofNat r.emitted ++ lit " samples"
  (.returned r.emitted, { r with world := r.world.log .info Simulation.logger said })

def emit (r : Run γ) : Except Failure Unit × Run γ :=
  let (made, s, w) := r.simulation.step r.world
  match made with
  | .error f => (.error f, { r with simulation := s, world := w, stop := r.stop.sampled })
  | .ok _ =>
    let n := r.emitted + 1
    (.ok (), ⟨s, w.log .debug Simulation.logger (lit "Emitted sample " ++ Text.ofNat n),
      r.stop.sampled, n⟩)

/-- One turn: a step, unless the run is told to stop, and a wait, unless the limit is reached. -/
def turn (limit : Option Int) (r : Run γ) : Progress × Run γ :=
  if r.stop.isSet then r.finish
  else match r.emit with
    | (.error f, r) => (.failed f, r)
    | (.ok _, r) =>
      if isFull limit r.emitted then r.finish
      else match r.stop.wait interval with
        | (.error f, s) => (.failed (.passed f), { r with stop := s })
        | (.ok _, s) => (.goesOn, { r with stop := s })

/-- Takes turns while the run goes on, at most `turns` of them. -/
def go (limit : Option Int) : (turns : Nat) → Run γ → Progress × Run γ
  | 0, r => (.goesOn, r)
  | n + 1, r =>
    match r.turn limit with
    | (.goesOn, r) => go limit n r
    | ended => ended

end Run

end HostTelemetry
