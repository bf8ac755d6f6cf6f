import HostTelemetry.Double.Arithmetic
import HostTelemetry.Fault

/-!
# Numbers

Whole numbers of any size, doubles and truth values, which count as 0 and 1. Comparison is exact
across the kinds and false for NaN. Arithmetic on whole numbers is exact; with a double on either
side the other one is made a double first, which fails if it is too large.
-/

set_option autoImplicit false

namespace HostTelemetry

inductive Number
  | bool (b : Bool)
  | int (n : Int)
  | double (d : Double)
  deriving DecidableEq

namespace Number

def whole? : Number → Option Int
  | .bool b => some (if b then 1 else 0)
  | .int n => some n
  | .double _ => none

def rank? : Number → Option Double.Rank
  | .bool b => some (.at ((if b then 1 else 0) * Double.one))
  | .int n => some (.at (n * Double.one))
  | .double d => d.rank?

def lt (a b : Number) : Bool :=
  match a.rank?, b.rank? with
  | some x, some y => x.lt y
  | _, _ => false

def toDouble : Number → Except Fault Double
  | .double d => .ok d
  | .bool b => .ok (if b then Double.ofRatio false 1 1 else Double.zero false)
  | .int n =>
    match Double.ofInt? n with
    | some d => .ok d
    | none => .error .tooLargeForDouble

/-- An operation that is exact on whole numbers and rounds on doubles. -/
def combine (onInts : Int → Int → Int) (onDoubles : Double → Double → Double) (a b : Number) :
    Except Fault Number :=
  match a.whole?, b.whole? with
  | some m, some n => .ok (.int (onInts m n))
  | _, _ => do
    let x ← a.toDouble
    let y ← b.toDouble
    pure (.double (onDoubles x y))

def add : Number → Number → Except Fault Number := combine (· + ·) Double.add

def sub : Number → Number → Except Fault Number := combine (· - ·) Double.sub

def mul : Number → Number → Except Fault Number := combine (· * ·) Double.mul

/-- The greater of a bound and a number; the bound unless the number is strictly greater. -/
def atLeast (bound x : Number) : Number := if bound.lt x then x else bound

/-- The lesser of a bound and a number; the bound unless the number is strictly less. -/
def atMost (bound x : Number) : Number := if x.lt bound then x else bound

end Number

end HostTelemetry
