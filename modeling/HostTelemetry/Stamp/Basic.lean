import HostTelemetry.Calendar

/-!
# Stamps

A date and a time of day, with a zone: none, one that does not tell its offset, or a fixed
offset. A stamp is aware if its offset is known.
-/

set_option autoImplicit false

namespace HostTelemetry

inductive Zone
  | none
  | silent
  | fixed (offset : Offset)
  deriving DecidableEq, Repr

structure Stamp where
  date : Date
  time : TimeOfDay
  zone : Zone
  deriving DecidableEq, Repr

namespace Stamp

def offset? (s : Stamp) : Option Offset :=
  match s.zone with
  | .fixed o => some o
  | _ => none

def make? (year month day hour minute second micro : Nat) (zone : Zone) :
    Except CalendarFault Stamp := do
  let date ← Date.make? year month day
  let time ← TimeOfDay.make? hour minute second micro
  pure ⟨date, time, zone⟩

end Stamp

end HostTelemetry
