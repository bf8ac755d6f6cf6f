import HostTelemetry.Double.Basic
import Mathlib

/-!
# Rounding to the grid

The nearest point of the grid depends on a quotient and not on how it is written, is the number
itself for numbers on the grid, and is never less than half of the number.
-/

set_option autoImplicit false

namespace HostTelemetry.Double

theorem quantum_eq (u : Nat) : quantum u = 2 ^ (u.log2 - 52) := rfl

theorem quantum_pos (u : Nat) : 0 < quantum u := by
  rw [quantum_eq]
  positivity

theorem roundDiv_scale (p q k : Nat) (hk : 0 < k) : roundDiv (p * k) (q * k) = roundDiv p q := by
  have hdiv : p * k / (q * k) = p / q := Nat.mul_div_mul_right p q hk
  have hmod : p * k % (q * k) = p % q * k := Nat.mul_mod_mul_right k p q
  have hlt : 2 * (p % q * k) < q * k ↔ 2 * (p % q) < q := by
    rw [← Nat.mul_assoc]
    exact Nat.mul_lt_mul_right hk
  have heq : 2 * (p % q * k) = q * k ↔ 2 * (p % q) = q := by
    rw [← Nat.mul_assoc]
    exact Nat.mul_left_inj (by omega)
  simp only [roundDiv, hdiv, hmod, hlt, heq]

theorem roundDiv_congr {p q p' q' : Nat} (hq : 0 < q) (hq' : 0 < q') (h : p * q' = p' * q) :
    roundDiv p q = roundDiv p' q' := by
  rw [← roundDiv_scale p q q' hq', ← roundDiv_scale p' q' q hq, h, Nat.mul_comm q q']

theorem div_congr {p q p' q' : Nat} (hq : 0 < q) (hq' : 0 < q') (h : p * q' = p' * q) :
    p / q = p' / q' := by
  rw [← Nat.mul_div_mul_right p q hq', ← Nat.mul_div_mul_right p' q' hq, h, Nat.mul_comm q q']

theorem nearest_congr {p q p' q' : Nat} (hq : 0 < q) (hq' : 0 < q') (h : p * q' = p' * q) :
    nearest p q = nearest p' q' := by
  have hs := quantum_pos (p' / q')
  have hround : roundDiv p (q * quantum (p' / q')) = roundDiv p' (q' * quantum (p' / q')) := by
    apply roundDiv_congr (Nat.mul_pos hq hs) (Nat.mul_pos hq' hs)
    rw [← Nat.mul_assoc, h, Nat.mul_assoc]
  unfold nearest
  rw [div_congr hq hq' h]
  dsimp only
  rw [hround]

theorem nearest_exact {u q : Nat} (hq : 0 < q) (hu : Representable u) : nearest (u * q) q = u := by
  obtain ⟨⟨k, hk⟩, -⟩ := hu
  have hs := quantum_pos u
  unfold nearest
  rw [Nat.mul_div_cancel u hq]
  dsimp only
  have hround : roundDiv (u * q) (q * quantum u) = k := by
    have hmul : u * q = k * (q * quantum u) := by
      conv_lhs => rw [hk]
      ring
    have hpos : 0 < q * quantum u := Nat.mul_pos hq hs
    rw [roundDiv, hmul, Nat.mul_div_cancel k hpos, Nat.mul_mod_left]
    simp [hpos]
  rw [hround, Nat.mul_comm]
  exact hk.symm

theorem le_roundDiv (p q : Nat) : p / q ≤ roundDiv p q := by
  unfold roundDiv
  dsimp only
  split <;> omega

/-- Rounding does not go below the power of two at or below a number. -/
theorem pow_log2_le_nearest {p q : Nat} (h : 0 < p / q) : 2 ^ (p / q).log2 ≤ nearest p q := by
  have hlow : 2 ^ (p / q).log2 ≤ p / q := Nat.log2_self_le (by omega)
  have hstep : 2 ^ (p / q).log2 = 2 ^ ((p / q).log2 - ((p / q).log2 - 52)) * quantum (p / q) := by
    rw [quantum_eq, ← pow_add]
    congr 1
    omega
  rw [hstep]
  unfold nearest
  dsimp only
  apply Nat.mul_le_mul_right
  apply le_trans _ (le_roundDiv _ _)
  rw [← Nat.div_div_eq_div_mul]
  rw [Nat.le_div_iff_mul_le (quantum_pos _), ← hstep]
  exact hlow

theorem lt_two_mul_nearest {p q : Nat} (h : 0 < p / q) : p / q < 2 * nearest p q := by
  have hhigh : p / q < 2 ^ ((p / q).log2 + 1) := Nat.lt_log2_self
  have hle := pow_log2_le_nearest h
  rw [pow_succ] at hhigh
  omega

theorem le_two_mul_of_nearest {p q : Nat} (h : nearest p q ≠ 0) : q ≤ 2 * p := by
  by_contra hlt
  apply h
  have hdiv : p / q = 0 := Nat.div_eq_of_lt (by omega)
  have hquantum : quantum 0 = 1 := rfl
  unfold nearest
  rw [hdiv, hquantum]
  dsimp only
  rw [Nat.mul_one, Nat.mul_one, roundDiv, hdiv, Nat.mod_eq_of_lt (by omega), if_pos]
  omega

end HostTelemetry.Double
