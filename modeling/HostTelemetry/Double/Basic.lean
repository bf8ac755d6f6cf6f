/-!
# Doubles

Binary floating-point numbers of 64 bits. A finite one is a whole number of units of `2 ^ -1074`
on a grid that coarsens with the number: a unit below `2 ^ 53` units, then twice as wide for each
further bit. There is one NaN. Rounding goes to the nearest point of the grid, a tie to the even
one, and is done in exact arithmetic on natural numbers.
-/

set_option autoImplicit false

namespace HostTelemetry

namespace Double

/-- The distance between neighbours of the grid at `u` units. -/
def quantum (u : Nat) : Nat := Nat.pow 2 (u.log2 - 52)

/-- Points of the grid, up to the largest finite number. -/
def Representable (u : Nat) : Prop := quantum u ∣ u ∧ u < Nat.pow 2 2098

instance (u : Nat) : Decidable (Representable u) := inferInstanceAs (Decidable (_ ∧ _))

@[irreducible]
def one : Nat := Nat.pow 2 1074

end Double

inductive Double
  | finite (negative : Bool) (units : Nat) (grid : Double.Representable units)
  | infinite (negative : Bool)
  | nan
  deriving DecidableEq

namespace Double

theorem representable_zero : Representable 0 := ⟨⟨0, by simp⟩, Nat.two_pow_pos _⟩

def zero (negative : Bool) : Double := .finite negative 0 representable_zero

instance : Inhabited Double := ⟨zero false⟩

/-- The quotient rounded to a whole number, a half to the even neighbour. -/
def roundDiv (p q : Nat) : Nat :=
  let d := p / q
  let r := p % q
  if 2 * r < q ∨ (2 * r = q ∧ d % 2 = 0) then d else d + 1

def nearest (p q : Nat) : Nat :=
  let s := quantum (p / q)
  roundDiv p (q * s) * s

def ofUnits (negative : Bool) (u : Nat) : Double :=
  if h : Representable u then .finite negative u h else .infinite negative

def ofRatio (negative : Bool) (p q : Nat) : Double := ofUnits negative (nearest (p * one) q)

def unlessInfinite : Double → Option Double
  | .infinite _ => none
  | d => some d

def ofInt? (n : Int) : Option Double := (ofRatio (n < 0) n.natAbs 1).unlessInfinite

def isFinite : Double → Bool
  | .finite .. => true
  | _ => false

def neg : Double → Double
  | .finite b u h => .finite (!b) u h
  | .infinite b => .infinite (!b)
  | .nan => .nan

def signed (negative : Bool) (u : Nat) : Int := if negative then -(u : Int) else u

/-- The place of a number in the order of all numbers: below all, at a number of units, or above
all. -/
inductive Rank
  | low
  | at (units : Int)
  | high
  deriving DecidableEq, Repr

namespace Rank

def lt : Rank → Rank → Bool
  | .low, .low => false
  | .low, _ => true
  | .at m, .at n => m < n
  | .at _, .high => true
  | _, _ => false

end Rank

def rank? : Double → Option Rank
  | .finite b u _ => some (.at (signed b u))
  | .infinite b => some (if b then .low else .high)
  | .nan => none

end Double

end HostTelemetry
