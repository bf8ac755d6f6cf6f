import HostTelemetry.Proofs.Simulation.Replay
import Mathlib.Data.ENat.Basic

/-!
# The cadence of a run

A run takes a sample, waits a second, takes a sample, and so on. It ends at its limit, which is
looked at before a wait, or once it is told to stop, which is asked after one, or with an interrupt
out of a wait. So its samples are as many as the least of these allows, and its waits are one fewer
at the limit and as many otherwise.
-/

set_option autoImplicit false

namespace HostTelemetry

namespace Schedule

def point : Option Nat → ℕ∞
  | some (k + 1) => (k + 1 : ℕ)
  | _ => ⊤

noncomputable def told (s : Schedule) : ℕ∞ := min (point s.duringSample) (point s.duringWait)

def interrupted (s : Schedule) : ℕ∞ := point s.interruptedWait

end Schedule

namespace Stop

end Stop

namespace Run

variable {γ : Type} [Producer γ]

/-- One sample after the other, without waits, and none of them fails. -/
def Drives (r : Run γ) : (samples : Nat) → Run γ → Prop
  | 0, r' => r' = r
  | n + 1, r' => ∃ r₁, Drives r n r₁ ∧ r₁.emit = (.ok (), r')

def waited (waits : Nat) (r : Run γ) : Run γ :=
  { r with stop := { r.stop with waits := List.replicate waits interval } }

theorem emit_stop {r r' : Run γ} (h : r.emit = (.ok (), r')) :
    r'.stop = r.stop.sampled ∧ r'.emitted = r.emitted + 1 := by
  unfold emit at h
  rcases hstep : r.simulation.step r.world with ⟨_ | line, s, w⟩
  · rw [hstep] at h
    cases h
  · rw [hstep] at h
    cases h
    exact ⟨rfl, rfl⟩

theorem Drives.counts {s : Simulation γ} {w : World} {schedule : Schedule} {n : Nat} {r' : Run γ}
    (h : (ofSchedule s w schedule).Drives n r') :
    r'.stop = ⟨schedule, n, []⟩ ∧ r'.emitted = n := by
  induction n generalizing r' with
  | zero =>
    obtain rfl : r' = ofSchedule s w schedule := h
    exact ⟨rfl, rfl⟩
  | succ n ih =>
    obtain ⟨r₁, hbefore, hemit⟩ := h
    obtain ⟨hstop, hemitted⟩ := emit_stop hemit
    obtain ⟨hstop₁, hemitted₁⟩ := ih hbefore
    rw [hstop, hemitted, hstop₁, hemitted₁]
    exact ⟨rfl, rfl⟩

section

variable {s : Simulation γ} {w : World} {schedule : Schedule} {limit : Option Int} {n : Nat}
  {r r' : Run γ}

end

theorem Drives.next {r r' : Run γ} {n : Nat} (h : r.Drives n r') (hemit : r'.emit.1.isOk = true) :
    r.Drives (n + 1) r'.emit.2 := by
  refine ⟨r', h, ?_⟩
  rcases hr : r'.emit with ⟨_ | _, r''⟩
  · rw [hr] at hemit
    cases hemit
  · rfl

def twice : Run (Generator Session.Steady AnyClock) :=
  .ofSchedule ⟨Session.steady, { Sink.make ⟨0, [lit "f"]⟩ false none with
    file := some ⟨0, 0, false, false, .none⟩ }, none⟩ Session.bare ⟨false, none, some 2, none⟩

end Run

end HostTelemetry
