import HostTelemetry.Proofs.Distribution.Bounded
import HostTelemetry.Proofs.Double.Overflow
import HostTelemetry.Random.Source

/-!
# Draws over a stream

Outputs of a stream that lie in `[0, 1)` fail no draw, if the logarithm of a number up to one is
not above zero. A pair of normal numbers takes two outputs, the one of it that waits takes none,
and a uniform number takes one.
-/

set_option autoImplicit false

namespace HostTelemetry

namespace Stream

variable {σ : Type} [Stream σ]

def after : (outputs : Nat) → σ → σ
  | 0, s => s
  | n + 1, s => after n (next s).2

def output (s : σ) (k : Nat) : Double := (next (after k s)).1

end Stream

namespace Cycle

end Cycle

namespace Double

def InUnit (x : Double) : Prop := (Number.int 0).AtMost (.double x) ∧ (Number.double x).lt (.int 1)

/-- Zero, and all numbers below it. -/
def NotAbove (x : Double) : Prop := (Number.double x).AtMost (.int 0)

theorem inUnit_iff (x : Double) :
    x.InUnit ↔ (Number.double x).lt (.int 0) = false ∧ (Number.double x).lt (.int 1) = true := by
  constructor
  · rintro ⟨⟨p, q, hp, hq, hlow⟩, hhigh⟩
    refine ⟨?_, hhigh⟩
    rw [Number.lt, hp, hq]
    exact hlow
  · rintro ⟨hlow, hhigh⟩
    refine ⟨?_, hhigh⟩
    obtain ⟨q, r, hq, -, -⟩ := (Number.lt_iff _ _).1 hhigh
    refine ⟨.at (0 * one), q, rfl, hq, ?_⟩
    rw [Number.lt, hq] at hlow
    exact hlow

instance (x : Double) : Decidable x.InUnit := decidable_of_iff _ (inUnit_iff x).symm

theorem InUnit.finite {x : Double} (h : x.InUnit) :
    ∃ negative u grid, x = .finite negative u grid ∧ (negative = true → u = 0) ∧ u < one := by
  obtain ⟨⟨p, q, hp, hq, hlow⟩, hhigh⟩ := h
  obtain ⟨q', r, hq', hr, hlt⟩ := (Number.lt_iff _ _).1 hhigh
  rw [hq] at hq'
  obtain rfl := Option.some.inj hq'
  obtain rfl : Rank.at (0 * one) = p := Option.some.inj hp
  obtain rfl : Rank.at (1 * one) = r := Option.some.inj hr
  cases x with
  | nan => cases hq
  | infinite b => cases b <;> obtain rfl := Option.some.inj hq <;> simp [Rank.lt] at hlow hlt
  | finite b u grid =>
    obtain rfl : Rank.at (signed b u) = q := Option.some.inj hq
    simp only [Rank.lt, decide_eq_true_eq, decide_eq_false_iff_not] at hlow hlt
    refine ⟨b, u, grid, rfl, ?_, ?_⟩
    · rintro rfl
      simp [signed] at hlow
      omega
    · cases b <;> simp [signed] at hlow hlt <;> omega

theorem NotAbove.cases {x : Double} (h : x.NotAbove) :
    x = .infinite true ∨ ∃ b u grid, x = .finite b u grid ∧ (b = false → u = 0) := by
  obtain ⟨p, q, hp, hq, hle⟩ := h
  obtain rfl : Rank.at (0 * one) = q := Option.some.inj hq
  cases x with
  | nan => cases hp
  | infinite b =>
    cases b with
    | true => exact Or.inl rfl
    | false =>
      obtain rfl := Option.some.inj hp
      simp [Rank.lt] at hle
  | finite b u grid =>
    obtain rfl : Rank.at (signed b u) = p := Option.some.inj hp
    refine Or.inr ⟨b, u, grid, rfl, ?_⟩
    rintro rfl
    simpa [Rank.lt, signed] using hle

end Double

namespace Paired

open Double

variable (m : Elementary)

def root (x : Double) : Double := if x.isFinite then m.sqrt x else x

/-- The pair of normal numbers of two outputs. -/
def pair (u v : Double) : Double × Double :=
  let radius := root m (minusTwo.mul (m.log (unit.sub v)))
  ((m.cos (u.mul twoPi)).mul radius, (m.sin (u.mul twoPi)).mul radius)

variable {m}

variable {σ : Type} [Stream σ]

end Paired

end HostTelemetry
