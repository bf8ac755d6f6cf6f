import HostTelemetry.Distribution
import HostTelemetry.Failure
import HostTelemetry.Sample

/-!
# Generating samples

A generator draws cpu, memory, disk and network, in this order, and then reads the clock. With
clamping the percentages are bounded to `[0, 100]` and the network to numbers from 0; the draws
are the same. What produces samples for a run is any state that a call changes.
-/

set_option autoImplicit false

namespace HostTelemetry

class Clock (τ : Type) where
  now : τ → Except Failure Value × τ

class Producer (γ : Type) where
  produce : γ → Except Failure Sample × γ

inductive Tick
  | shows (v : Value)
  | fails (f : Failure)

/-- Clocks that can be asked for: one that always shows the local time, and planned ones. -/
inductive AnyClock
  | still (s : Stamp)
  | planned (ticks : Cycle Tick)

namespace AnyClock

def now : AnyClock → Except Failure Value × AnyClock
  | .still s => (.ok (.stamp s), .still s)
  | .planned c =>
    match c.next? with
    | some (.shows v, c) => (.ok v, .planned c)
    | some (.fails f, c) => (.error f, .planned c)
    | none => (.ok .none, .planned c)

instance : Clock AnyClock := ⟨now⟩

end AnyClock

structure Generator (σ τ : Type) where
  source : σ
  clock : τ
  clamp : Bool

namespace Generator

def whole (n : Nat) : Number := .double (Double.ofRatio false n 1)

def cpu : Distribution := .normal (whole 70) (whole 20)

def memory : Distribution := .uniform (whole 70) (whole 90)

def disk : Distribution := .uniform (whole 50) (whole 70)

def network : Distribution := .normal (whole 1000) (whole 50)

/-- The distributions in the order of the draws, each with its greatest value when clamped. -/
def fields : List (Distribution × Option Number) :=
  [(cpu, some (whole 100)), (memory, some (whole 100)), (disk, some (whole 100)), (network, none)]

variable {σ τ : Type} [Source σ] [Clock τ]

def draw (clamp : Bool) (d : Distribution) (high : Option Number) (s : σ) :
    Except Fault Number × σ :=
  if clamp then d.sampleBounded (some (whole 0)) high s else d.sample s

def drawAll (clamp : Bool) : List (Distribution × Option Number) → σ → Except Fault (List Number) × σ
  | [], s => (.ok [], s)
  | (d, high) :: ds, s =>
    match draw clamp d high s with
    | (.error f, s) => (.error f, s)
    | (.ok x, s) =>
      let (xs, s) := drawAll clamp ds s
      (xs.map (x :: ·), s)

def sampleOf (xs : List Number) (time : Value) : Sample :=
  let field := fun i => Value.ofNumber (xs.getD i (.int 0))
  ⟨field 0, field 1, field 2, field 3, time⟩

def generate (g : Generator σ τ) : Except Failure Sample × Generator σ τ :=
  match drawAll g.clamp fields g.source with
  | (.error f, s) => (.error (.passed f), { g with source := s })
  | (.ok xs, s) =>
    let (time, c) := Clock.now g.clock
    (time.map (sampleOf xs), { g with source := s, clock := c })

instance : Producer (Generator σ τ) := ⟨generate⟩

end Generator

end HostTelemetry
