import HostTelemetry.Double.Reader
import HostTelemetry.Value.Basic

/-!
# Reading decimals, fractions and complex numbers

Each has a text of its own: digits with a point and an exponent, a quotient or a decimal, and a
real and an imaginary part.
-/

set_option autoImplicit false

namespace HostTelemetry.Value

def ofDecimalText? (t : Text) : Option Value := do
  let (negative, rest) := Text.signed (Text.trim t)
  let d ← Decimal.read? rest
  let digits := d.digits.dropWhile (· == 0)
  some (.decimal negative (if digits.isEmpty then [0] else digits) (d.point - d.digits.length))

def reduced (negative : Bool) (p q : Nat) : Value :=
  let g := Nat.gcd p q
  let n : Int := p / g
  .fraction (if negative then -n else n) (q / g)

def ofFractionText? (t : Text) : Option Value := do
  let (negative, rest) := Text.signed (Text.trim t)
  match Text.cut? (cp '/') rest with
  | some (p, q) =>
    if p.all CodePoint.isDigit && q.all CodePoint.isDigit && Text.digitsValue q != 0 then
      some (reduced negative (Text.digitsValue p) (Text.digitsValue q))
    else Option.none
  | Option.none =>
    let d ← Decimal.read? rest
    let n := Digits.value 10 d.digits
    let e := d.point - d.digits.length
    some (if e < 0 then reduced negative n (Nat.pow 10 e.natAbs)
      else reduced negative (n * Nat.pow 10 e.natAbs) 1)

/-- Where the last sign stands that does not belong to an exponent; 0 if there is none. -/
def splitPoint (t : Text) : Nat :=
  (List.range t.length).foldl (fun best i =>
    let c := t.getD i 0
    let before := t.getD (i - 1) 0
    if (c = cp '+' ∨ c = cp '-') ∧ 0 < i ∧ before ≠ cp 'e' ∧ before ≠ cp 'E' then i else best) 0

def ofComplexText? (t : Text) : Option Value := do
  let t := (Text.trim t).filter fun c => c ≠ cp '(' && c ≠ cp ')'
  if t.getLast? = some (cp 'j') then
    let body := t.dropLast
    let n := splitPoint body
    let im ← Double.read? (body.drop n)
    let re ← if n = 0 then some (Double.zero false) else Double.read? (body.take n)
    some (.complex re im)
  else
    let re ← Double.read? t
    some (.complex re (Double.zero false))

end HostTelemetry.Value
