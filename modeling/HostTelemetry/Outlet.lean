import HostTelemetry.Disk.Handle

/-!
# Outlets

An outlet is a text stream that lines are echoed to: one that holds all text, one for ASCII
only, or one that is closed. A write that fails writes nothing.
-/

set_option autoImplicit false

namespace HostTelemetry

inductive Outlet.Kind
  | unicode
  | ascii
  | closed
  deriving DecidableEq, Repr

structure Outlet where
  kind : Outlet.Kind
  text : Text
  writes : List Planned
  flushes : List Planned

namespace Outlet

def ofKind (k : Kind) : Outlet := ⟨k, [], [], []⟩

def refusal (o : Outlet) (t : Text) : Option Fault :=
  match o.kind with
  | .unicode => none
  | .closed => some .closed
  | .ascii => (Utf8.refused (· < 0x80) t).map (.unwritable .ascii)

def write (t : Text) (o : Outlet) : Except Fault Unit × Outlet :=
  let (a, rest) := nextPlanned o.writes
  let o := { o with writes := rest }
  match a.orElse fun _ => o.refusal t with
  | some f => (.error f, o)
  | none => (.ok (), { o with text := o.text ++ t })

def flush (o : Outlet) : Except Fault Unit × Outlet :=
  let (a, rest) := nextPlanned o.flushes
  let o := { o with flushes := rest }
  match a with
  | some f => (.error f, o)
  | none => (if o.kind = .closed then .error .closed else .ok (), o)

def send (t : Text) (o : Outlet) : Except Fault Unit × Outlet :=
  match o.write t with
  | (.error f, o) => (.error f, o)
  | (.ok _, o) => o.flush

end Outlet

end HostTelemetry
