import HostTelemetry.Double.Decimal
import HostTelemetry.Proofs.Double.Nearest
import HostTelemetry.Proofs.Text.Digits

/-!
# The fewest digits read back

However the digits of a double are found, on one of the grids or as the exact expansion, they are
those of a whole number and a power of ten that round to the double. Reading looks only at that
quotient, so zeros at either end and the place of the point do not matter.
-/

set_option autoImplicit false

namespace HostTelemetry.Double

def unitsOf (n : Nat) (e : Int) : Nat := nearest ((scaled n 1 e).1 * one) (scaled n 1 e).2

theorem one_eq : one = 2 ^ 1074 := by
  unfold one
  exact Nat.pow_eq

theorem one_pos : 0 < one := by
  rw [one_eq]
  positivity

theorem scaled_of_neg (p q : Nat) {e : Int} (h : e < 0) :
    scaled p q e = (p, q * 10 ^ e.natAbs) := if_pos h

theorem scaled_of_nonneg (p q : Nat) {e : Int} (h : 0 ≤ e) :
    scaled p q e = (p * 10 ^ e.natAbs, q) := if_neg (by omega)

theorem scaled_pos (p : Nat) (e : Int) : 0 < (scaled p 1 e).2 := by
  rcases Int.lt_or_le e 0 with h | h
  · rw [scaled_of_neg p 1 h]
    positivity
  · rw [scaled_of_nonneg p 1 h]
    exact Nat.one_pos

theorem readsBack_iff (u m : Nat) (e : Int) : readsBack u m e = true ↔ unitsOf m e = u := by
  have hscaled : scaled (m * one) 1 e = ((scaled m 1 e).1 * one, (scaled m 1 e).2) := by
    rcases Int.lt_or_le e 0 with h | h
    · rw [scaled_of_neg _ 1 h, scaled_of_neg _ 1 h]
    · rw [scaled_of_nonneg _ 1 h, scaled_of_nonneg _ 1 h, Nat.mul_right_comm]
  rw [readsBack, hscaled, beq_iff_eq]
  rfl

theorem unitsOf_shift (n k : Nat) (e : Int) : unitsOf (n * 10 ^ k) e = unitsOf n (e + k) := by
  apply nearest_congr (scaled_pos _ _) (scaled_pos _ _)
  rcases Int.lt_or_le e 0 with h | h
  · rcases Int.lt_or_le (e + k) 0 with h' | h'
    · rw [scaled_of_neg _ 1 h, scaled_of_neg _ 1 h']
      have habs : e.natAbs = (e + k).natAbs + k := by omega
      dsimp only
      rw [habs, pow_add]
      ring
    · rw [scaled_of_neg _ 1 h, scaled_of_nonneg _ 1 h']
      have habs : k = (e + k).natAbs + e.natAbs := by omega
      dsimp only
      conv_lhs => rw [habs, pow_add]
      ring
  · have h' : 0 ≤ e + k := by omega
    rw [scaled_of_nonneg _ 1 h, scaled_of_nonneg _ 1 h']
    have habs : (e + k).natAbs = e.natAbs + k := by omega
    dsimp only
    rw [habs, pow_add]
    ring

theorem unitsOf_exact {u : Nat} (h : Representable u) :
    unitsOf (u * 5 ^ 1074) (-1074) = u := by
  have hexact : unitsOf (u * 5 ^ 1074) (-1074) = nearest (u * 10 ^ 1074) (10 ^ 1074) := by
    apply nearest_congr (scaled_pos _ _) (by positivity)
    rw [scaled_of_neg _ 1 (by decide), one_eq, Nat.mul_assoc u, ← mul_pow]
    have habs : (-1074 : Int).natAbs = 1074 := rfl
    dsimp only
    rw [habs]
    ring
  rw [hexact]
  exact nearest_exact (by positivity) h

theorem ne_zero_of_unitsOf {n u : Nat} {e : Int} (hu : u ≠ 0) (h : unitsOf n e = u) : n ≠ 0 := by
  rintro rfl
  have hzero : scaled 0 1 e = (0, (scaled 0 1 e).2) := by
    rcases Int.lt_or_le e 0 with h | h
    · rw [scaled_of_neg _ 1 h]
    · rw [scaled_of_nonneg _ 1 h, Nat.zero_mul]
  have hpos := scaled_pos 0 e
  have hle := le_two_mul_of_nearest (h.trans_ne hu)
  rw [hzero] at hle hpos
  simp at hle
  omega

theorem two_pow_lt_ten_pow : 2 ^ 1200 ≤ 10 ^ 400 := by
  calc 2 ^ 1200 = (2 ^ 3) ^ 400 := by rw [← pow_mul]
    _ ≤ 10 ^ 400 := Nat.pow_le_pow_left (by decide) 400

theorem lower_of_unitsOf {n u k : Nat} {e : Int} (hu : u ≠ 0) (h : unitsOf n e = u)
    (hn : n < 10 ^ k) : -400 ≤ e + k := by
  by_contra hlow
  have he : e < 0 := by omega
  have hle := le_two_mul_of_nearest (h.trans_ne hu)
  rw [scaled_of_neg _ 1 he, one_eq] at hle
  have hpow : 10 ^ (k + 400) ≤ 10 ^ e.natAbs := Nat.pow_le_pow_right (by decide) (by omega)
  have hsmall : 2 * (n * 2 ^ 1074) < 10 ^ (k + 400) := by
    calc 2 * (n * 2 ^ 1074) = n * 2 ^ 1075 := by rw [pow_succ 2 1074]; ring
      _ < 10 ^ k * 2 ^ 1075 := Nat.mul_lt_mul_of_pos_right hn (by positivity)
      _ ≤ 10 ^ k * 2 ^ 1200 :=
        Nat.mul_le_mul_left _ (Nat.pow_le_pow_right (by decide) (by decide))
      _ ≤ 10 ^ k * 10 ^ 400 := Nat.mul_le_mul_left _ two_pow_lt_ten_pow
      _ = 10 ^ (k + 400) := by rw [pow_add]
  omega

theorem upper_of_unitsOf {n u : Nat} {e : Int} (hu : u < 2 ^ 2098) (hn : n ≠ 0)
    (h : unitsOf n e = u) : e ≤ 400 := by
  by_contra hhigh
  have he : 0 ≤ e := by omega
  rw [unitsOf, scaled_of_nonneg _ 1 he, one_eq] at h
  have hlarge : 2 ^ 2274 ≤ n * 10 ^ e.natAbs * 2 ^ 1074 := by
    calc 2 ^ 2274 = 2 ^ 1200 * 2 ^ 1074 := by rw [← pow_add]
      _ ≤ 10 ^ 400 * 2 ^ 1074 := Nat.mul_le_mul_right _ two_pow_lt_ten_pow
      _ ≤ 10 ^ e.natAbs * 2 ^ 1074 :=
        Nat.mul_le_mul_right _ (Nat.pow_le_pow_right (by decide) (by omega))
      _ ≤ n * 10 ^ e.natAbs * 2 ^ 1074 :=
        Nat.mul_le_mul_right _ (Nat.le_mul_of_pos_left _ (Nat.pos_of_ne_zero hn))
  have hpos : 0 < 2 ^ 2274 := by positivity
  have hhalf : n * 10 ^ e.natAbs * 2 ^ 1074 / 1 < 2 * nearest (n * 10 ^ e.natAbs * 2 ^ 1074) 1 := by
    apply lt_two_mul_nearest
    rw [Nat.div_one]
    exact Nat.lt_of_lt_of_le hpos hlarge
  rw [Nat.div_one, h] at hhalf
  have hbound : 2 * 2 ^ 2098 < 2 ^ 2274 := by
    rw [← pow_succ']
    exact Nat.pow_lt_pow_right (by decide) (by decide)
  omega

/-- A decimal whose digits begin with no zero and round to a number of units. -/
structure Denotes (d : Decimal) (u : Nat) : Prop where
  digits_lt : ∀ x ∈ d.digits, x < 10
  head : ∃ c cs, d.digits = c :: cs ∧ c ≠ 0
  units : unitsOf (Digits.value 10 d.digits) (d.point - d.digits.length) = u

theorem strip_zeros (ds : List Nat) :
    ∃ k, ds = (ds.reverse.dropWhile (· == 0)).reverse ++ List.replicate k 0 := by
  have hzeros : ∀ x ∈ ds.reverse.takeWhile (· == 0), x = 0 := fun x hx => by
    simpa using List.mem_takeWhile_imp hx
  have hsplit : ds.reverse.takeWhile (· == 0) ++ ds.reverse.dropWhile (· == 0) = ds.reverse :=
    List.takeWhile_append_dropWhile
  use (ds.reverse.takeWhile (· == 0)).length
  conv_lhs => rw [← List.reverse_reverse ds, ← hsplit, List.reverse_append]
  rw [List.eq_replicate_of_mem hzeros, List.reverse_replicate, List.length_replicate]

theorem decimalOf_eq (m : Nat) (e : Int) :
    decimalOf m e = ⟨((Digits.ofNat m).reverse.dropWhile (· == 0)).reverse,
      e + (Digits.ofNat m).length⟩ := rfl

theorem decimalOf_denotes {m u : Nat} {e : Int} (hu : u ≠ 0) (h : unitsOf m e = u) :
    Denotes (decimalOf m e) u := by
  have hm := ne_zero_of_unitsOf hu h
  have hpos : 0 < m := Nat.pos_of_ne_zero hm
  obtain ⟨k, hk⟩ := strip_zeros (Digits.ofNat m)
  obtain ⟨c, cs, hcs, hc⟩ := Digits.ofPos_head hpos
  rw [← Digits.ofNat_pos hpos] at hcs
  have hvalue := Digits.value_ofNat m
  rw [decimalOf_eq]
  generalize ((Digits.ofNat m).reverse.dropWhile (· == 0)).reverse = ds at hk ⊢
  rw [hk, Digits.value_append_zeros] at hvalue
  constructor
  · intro x hx
    apply Digits.ofNat_lt m
    rw [hk]
    exact List.mem_append_left _ hx
  · cases ds with
    | nil =>
      rw [hk, List.nil_append] at hcs
      have hmem : c ∈ List.replicate k 0 := by rw [hcs]; exact List.mem_cons_self ..
      exact absurd (List.eq_of_mem_replicate hmem) hc
    | cons d ds =>
      rw [hk, List.cons_append, List.cons.injEq] at hcs
      exact ⟨d, ds, rfl, by rw [hcs.1]; exact hc⟩
  · dsimp only
    rw [hk, List.length_append, List.length_replicate]
    rw [← hvalue, unitsOf_shift] at h
    rw [← h]
    congr 1
    push_cast
    ring

theorem expansion_denotes {u : Nat} (hu : u ≠ 0) (hgrid : Representable u) :
    Denotes (expansion u) u := by
  rw [expansion, Nat.pow_eq]
  exact decimalOf_denotes hu (unitsOf_exact hgrid)

theorem readsBack_of_onGrid {u m : Nat} {e : Int} (h : onGrid u e = some m) :
    readsBack u m e = true := by
  unfold onGrid at h
  dsimp only at h
  split at h
  · simp at h
  · obtain rfl := Option.some.inj h
    assumption
  · obtain rfl := Option.some.inj h
    assumption
  · split at h <;> obtain rfl := Option.some.inj h <;> assumption

theorem search_denotes {u : Nat} (hu : u ≠ 0) (hgrid : Representable u) (e : Int) (k n : Nat) :
    Denotes (search u e k n) u := by
  induction k generalizing n with
  | zero =>
    rw [search]
    exact expansion_denotes hu hgrid
  | succ k ih =>
    rw [search]
    rcases hm : onGrid u (e + 1 - n) with _ | m
    · exact ih (n + 1)
    · apply decimalOf_denotes hu
      rw [← readsBack_iff]
      exact readsBack_of_onGrid hm

theorem shortest_denotes {u : Nat} (hu : u ≠ 0) (hgrid : Representable u) :
    Denotes (shortest u) u := by
  rw [shortest, if_neg hu]
  exact search_denotes hu hgrid _ 17 1

theorem ofDecimal_eq (negative : Bool) {d : Decimal} {u : Nat} (hu : u ≠ 0)
    (hgrid : Representable u) (hdigits : ∀ x ∈ d.digits, x < 10)
    (h : unitsOf (Digits.value 10 d.digits) (d.point - d.digits.length) = u) :
    ofDecimal negative d = .finite negative u hgrid := by
  have hn := ne_zero_of_unitsOf hu h
  have hlow := lower_of_unitsOf hu h (Digits.value_lt d.digits hdigits)
  have hhigh := upper_of_unitsOf hgrid.2 hn h
  have hfar : ¬(Digits.value 10 d.digits = 0 ∨ d.point < -400) := by
    rintro (hzero | hpoint)
    · exact hn hzero
    · omega
  unfold ofDecimal
  dsimp only
  rw [if_neg hfar, if_neg (by omega)]
  show ofUnits negative (unitsOf _ _) = _
  rw [h, ofUnits, dif_pos hgrid]

theorem ofDecimal_zero (negative : Bool) {d : Decimal} (h : Digits.value 10 d.digits = 0) :
    ofDecimal negative d = zero negative := if_pos (Or.inl h)

end HostTelemetry.Double
