import HostTelemetry.Double.Basic
import HostTelemetry.Text.Blank

/-!
# Doubles and decimals

A decimal is a run of digits and the place of the point. Reading rounds it to the nearest double.
Printing takes the fewest digits that read back: on the grids of one, two, up to seventeen digits
the two neighbours of the number are tried, and of two that read back the nearer is taken, at a
tie the even one.
-/

set_option autoImplicit false

namespace HostTelemetry

/-- The number `0.d₁d₂…` times ten to the power of `point`. -/
structure Decimal where
  digits : List Nat
  point : Int
  deriving DecidableEq, Repr

namespace Double

def scaled (p q : Nat) (e : Int) : Nat × Nat :=
  if e < 0 then (p, q * Nat.pow 10 e.natAbs) else (p * Nat.pow 10 e.natAbs, q)

/-- The double next to a decimal. Far outside the range the answer is known without computing the
power of ten. -/
def ofDecimal (negative : Bool) (d : Decimal) : Double :=
  let n := Digits.value 10 d.digits
  let e := d.point - d.digits.length
  if n = 0 ∨ d.point < -400 then zero negative
  else if e > 400 then .infinite negative
  else
    let r := scaled n 1 e
    ofRatio negative r.1 r.2

/-- How often a fraction below one has to be multiplied by ten to reach one; `n` bounds the
count. -/
def zerosBefore : (n p q : Nat) → Nat
  | 0, _, _ => 0
  | n + 1, p, q => if q ≤ p then 0 else zerosBefore n (p * 10) q + 1

def magnitude (u : Nat) : Int :=
  if one ≤ u then (Digits.ofNat (u / one)).length - 1
  else -(zerosBefore 330 u one : Int)

def readsBack (u m : Nat) (e : Int) : Bool :=
  let r := scaled (m * one) 1 e
  nearest r.1 r.2 == u

@[irreducible]
def onGrid (u : Nat) (e : Int) : Option Nat :=
  let r := scaled u one (-e)
  let m := r.1 / r.2
  let rest := r.1 % r.2
  match readsBack u m e, readsBack u (m + 1) e with
  | false, false => none
  | true, false => some m
  | false, true => some (m + 1)
  | true, true =>
    if 2 * rest < r.2 ∨ (2 * rest = r.2 ∧ m % 2 = 0) then some m else some (m + 1)

def decimalOf (m : Nat) (e : Int) : Decimal :=
  let ds := Digits.ofNat m
  ⟨(ds.reverse.dropWhile (· == 0)).reverse, e + ds.length⟩

def expansion (u : Nat) : Decimal := decimalOf (u * Nat.pow 5 1074) (-1074)

/-- The grids of `n`, `n + 1`, … digits in turn, `k` of them; past them the exact expansion. -/
def search (u : Nat) (e : Int) : (k n : Nat) → Decimal
  | 0, _ => expansion u
  | k + 1, n =>
    match onGrid u (e + 1 - n) with
    | some m => decimalOf m (e + 1 - n)
    | none => search u e k (n + 1)

def shortest (u : Nat) : Decimal :=
  if u = 0 then ⟨[0], 1⟩ else search u (magnitude u) 17 1

end Double

end HostTelemetry
