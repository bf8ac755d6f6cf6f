import HostTelemetry.Double.Basic

/-!
# Arithmetic on doubles

Sums, differences and products are exact, then rounded. Square root, logarithm, sine and cosine
are the machine's; bits are the border between the two forms.
-/

set_option autoImplicit false

namespace HostTelemetry.Double

/-- A sum of signed units; a zero is negative only if both terms are. -/
def add : Double → Double → Double
  | .nan, _ => .nan
  | _, .nan => .nan
  | .infinite a, .infinite b => if a = b then .infinite a else .nan
  | .infinite a, _ => .infinite a
  | _, .infinite b => .infinite b
  | .finite a u _, .finite b v _ =>
    let s := signed a u + signed b v
    if s = 0 then zero (a && b) else ofUnits (s < 0) (nearest s.natAbs 1)

def sub (x y : Double) : Double := add x y.neg

def mul : Double → Double → Double
  | .nan, _ => .nan
  | _, .nan => .nan
  | .infinite a, .infinite b => .infinite (a ^^ b)
  | .infinite a, .finite b v _ => if v = 0 then .nan else .infinite (a ^^ b)
  | .finite a u _, .infinite b => if u = 0 then .nan else .infinite (a ^^ b)
  | .finite a u _, .finite b v _ => ofUnits (a ^^ b) (nearest (u * v) one)

def toBits : Double → UInt64
  | .nan => 0x7FF8000000000000
  | .infinite b => (if b then 0x8000000000000000 else 0) + 0x7FF0000000000000
  | .finite b u _ =>
    let e := u.log2 - 52
    let m := u / Nat.pow 2 e
    let body := if u < Nat.pow 2 52 then u else (e + 1) * Nat.pow 2 52 + (m - Nat.pow 2 52)
    (if b then 0x8000000000000000 else 0) + body.toUInt64

def ofBits (w : UInt64) : Double :=
  let n := w.toNat
  let negative := Nat.pow 2 63 ≤ n
  let e := n / Nat.pow 2 52 % Nat.pow 2 11
  let f := n % Nat.pow 2 52
  if e = 2047 then (if f = 0 then .infinite negative else .nan)
  else if e = 0 then ofUnits negative f
  else ofUnits negative ((Nat.pow 2 52 + f) * Nat.pow 2 (e - 1))

def toMachine (x : Double) : Float := Float.ofBits x.toBits

def ofMachine (x : Float) : Double := ofBits x.toBits

def sqrt (x : Double) : Double := ofMachine x.toMachine.sqrt

def log (x : Double) : Double := ofMachine x.toMachine.log

def sin (x : Double) : Double := ofMachine x.toMachine.sin

def cos (x : Double) : Double := ofMachine x.toMachine.cos

end HostTelemetry.Double
