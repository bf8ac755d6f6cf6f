import HostTelemetry.Random.Source

/-!
# Distributions

Normal numbers around a mean and uniform numbers between two bounds. A draw can be bounded; a
bound keeps its own type and wins against a draw that is equal to it or no number.
-/

set_option autoImplicit false

namespace HostTelemetry

inductive Distribution
  | normal (mean stddev : Number)
  | uniform (low high : Number)

namespace Distribution

def normal? (mean stddev : Number) : Except Fault Distribution :=
  if stddev.lt (.int 0) then .error .negativeSpread else .ok (.normal mean stddev)

def uniform? (low high : Number) : Except Fault Distribution :=
  if high.lt low then .error .lowAboveHigh else .ok (.uniform low high)

variable {σ : Type} [Source σ]

def sample (d : Distribution) (s : σ) : Except Fault Number × σ :=
  match d with
  | .normal mean stddev => Source.gauss mean stddev s
  | .uniform low high => Source.uniform low high s

/-- A number moved to the bounds that are given, the lower one first. -/
def bounded (low high : Option Number) (x : Number) : Number :=
  let x := match low with
    | some b => b.atLeast x
    | none => x
  match high with
  | some b => b.atMost x
  | none => x

def sampleBounded (d : Distribution) (low high : Option Number) (s : σ) :
    Except Fault Number × σ :=
  let (x, s) := d.sample s
  (x.map (bounded low high), s)

end Distribution

end HostTelemetry
