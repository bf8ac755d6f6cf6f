import HostTelemetry.Stamp.Basic
import HostTelemetry.Text.Basic

/-!
# Text of a stamp

`2024-05-01T12:00:00.123456+02:00`: the offset has seconds, and microseconds of a second, only
when they are not zero, and its sign goes in front of the whole.
-/

set_option autoImplicit false

namespace HostTelemetry

inductive Micros
  | always
  | nonzero
  deriving DecidableEq, Repr

namespace Date

def toText (d : Date) : Text :=
  Text.padded 4 d.year ++ cp '-' :: Text.padded 2 d.month ++ cp '-' :: Text.padded 2 d.day

end Date

namespace TimeOfDay

def toText (m : Micros) (t : TimeOfDay) : Text :=
  Text.padded 2 t.hour ++ cp ':' :: Text.padded 2 t.minute ++ cp ':' :: Text.padded 2 t.second ++
    (if m = .always ∨ t.micro ≠ 0 then cp '.' :: Text.padded 6 t.micro else [])

end TimeOfDay

namespace Offset

def toText (o : Offset) : Text :=
  let n := o.micros.natAbs
  let seconds := n / 1000000
  let micros := n % 1000000
  (if o.micros < 0 then cp '-' else cp '+') :: Text.padded 2 (seconds / 3600) ++
    cp ':' :: Text.padded 2 (seconds / 60 % 60) ++
    (if n % 60000000 = 0 then [] else cp ':' :: Text.padded 2 (seconds % 60)) ++
    (if micros = 0 then [] else cp '.' :: Text.padded 6 micros)

end Offset

namespace Stamp

def render (separator : CodePoint) (m : Micros) (s : Stamp) : Text :=
  s.date.toText ++ separator :: s.time.toText m ++
    (match s.offset? with
    | some o => o.toText
    | none => [])

end Stamp

end HostTelemetry
