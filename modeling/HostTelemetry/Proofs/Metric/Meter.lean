import HostTelemetry.Metric.Meter
import HostTelemetry.Proofs.Sink.Fate

/-!
# What the meter counts

Once some lines are counted, each counter was told an amount for each of them: one sample, and the
bytes of the line.
-/

set_option autoImplicit false

namespace HostTelemetry

namespace Meter

def counting (output : Text) (lines : List Text) : Meter :=
  { own with recorded := lines.map fun line => (output, (Sink.bytesOf line).length) }

theorem record_counting (output : Text) (lines : List Text) (line : Text) :
    (counting output lines).record (Sink.bytesOf line).length output =
      counting output (lines ++ [line]) := by
  simp [record, counting]

theorem counting_told (output : Text) (lines : List Text) :
    (counting output lines).told =
      [⟨samples, lines.map fun _ => (output, 1)⟩,
        ⟨bytes, lines.map fun line => (output, (Sink.bytesOf line).length)⟩] := by
  simp only [told, counting, List.map_map]
  rfl

theorem counting_output (output : Text) (lines : List Text) :
    ∀ t ∈ (counting output lines).told, ∀ p ∈ t.amounts, p.1 = output := by
  intro t ht p hp
  simp only [counting_told, List.mem_cons, List.not_mem_nil, or_false] at ht
  rcases ht with rfl | rfl
  · obtain ⟨_, -, rfl⟩ := List.mem_map.1 hp
    rfl
  · obtain ⟨_, -, rfl⟩ := List.mem_map.1 hp
    rfl

end Meter

end HostTelemetry
