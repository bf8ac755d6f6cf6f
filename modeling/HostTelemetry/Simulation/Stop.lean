import HostTelemetry.Double.Basic
import HostTelemetry.Fault

/-!
# Being told to stop

What tells a run to stop is set from the start, or while some sample is made, or during some
wait; or the run is interrupted in a wait. Samples and waits are counted from 1. All waits are
kept.
-/

set_option autoImplicit false

namespace HostTelemetry

structure Schedule where
  fromStart : Bool
  duringSample : Option Nat
  duringWait : Option Nat
  interruptedWait : Option Nat
  deriving DecidableEq, Repr

namespace Schedule

def never : Schedule := ⟨false, none, none, none⟩

end Schedule

structure Stop where
  schedule : Schedule
  samples : Nat
  /-- How long each wait was to be, in seconds. -/
  waits : List Double

namespace Stop

def ofSchedule (s : Schedule) : Stop := ⟨s, 0, []⟩

/-- Whether a point that is counted from 1 has come, once `n` of its sort have been. -/
def reached (planned : Option Nat) (n : Nat) : Bool :=
  match planned with
  | none => false
  | some k => 1 ≤ k && k ≤ n

def isSet (s : Stop) : Bool :=
  s.schedule.fromStart || reached s.schedule.duringSample s.samples ||
    reached s.schedule.duringWait s.waits.length

def sampled (s : Stop) : Stop := { s with samples := s.samples + 1 }

/-- Waits; an interrupt comes instead of the end of a wait. -/
def wait (seconds : Double) (s : Stop) : Except Fault Unit × Stop :=
  let s := { s with waits := s.waits ++ [seconds] }
  (if s.schedule.interruptedWait = some s.waits.length then .error .interrupt else .ok (), s)

end Stop

end HostTelemetry
