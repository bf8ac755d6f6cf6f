import HostTelemetry.Proofs.Double.Shortest

/-!
# Whole numbers without a double

Rounding stays on the grid, even where it carries into the next power of two. So the only whole
numbers without a double are those that round past the largest one: from half a step behind it on.
-/

set_option autoImplicit false

namespace HostTelemetry.Double

theorem quantum_of_bounds {u k : Nat} (hlow : 2 ^ (52 + k) ≤ u) (hhigh : u < 2 ^ (53 + k)) :
    quantum u = 2 ^ k := by
  have hpos : 0 < 2 ^ (52 + k) := by positivity
  have hlog : u.log2 = 52 + k :=
    (Nat.log2_eq_iff (by omega)).2 ⟨hlow, by rwa [Nat.add_right_comm]⟩
  rw [quantum_eq, hlog, Nat.add_sub_cancel_left]

theorem quantum_of_small {u : Nat} (h : u < 2 ^ 52) : quantum u = 1 := by
  rcases Nat.eq_zero_or_pos u with rfl | hu
  · rfl
  · have hlog : u.log2 < 52 := (Nat.log2_lt (by omega)).2 h
    rw [quantum_eq, Nat.sub_eq_zero_of_le (by omega), pow_zero]

theorem nearest_eq (u : Nat) : nearest u 1 = roundDiv u (quantum u) * quantum u := by
  simp only [nearest, Nat.div_one, Nat.one_mul]

theorem bounds_of_large {u : Nat} (h : 2 ^ 52 ≤ u) :
    ∃ k, 2 ^ (52 + k) ≤ u ∧ u < 2 ^ (53 + k) := by
  obtain ⟨k, hk⟩ : ∃ k, u.log2 = 52 + k := by
    have hlog : ¬u.log2 < 52 := fun hlt => absurd ((Nat.log2_lt (by omega)).1 hlt) (by omega)
    exact ⟨u.log2 - 52, by omega⟩
  have hhigh : u < 2 ^ (u.log2 + 1) := Nat.lt_log2_self
  refine ⟨k, hk ▸ Nat.log2_self_le (by omega), ?_⟩
  rwa [hk, Nat.add_right_comm] at hhigh

theorem roundDiv_le (p q : Nat) : roundDiv p q ≤ p / q + 1 := by
  unfold roundDiv
  dsimp only
  split <;> omega

theorem steps_bounds {u k : Nat} (hlow : 2 ^ (52 + k) ≤ u) (hhigh : u < 2 ^ (53 + k)) :
    2 ^ 52 ≤ u / 2 ^ k ∧ u / 2 ^ k < 2 ^ 53 := by
  rw [pow_add] at hlow hhigh
  have hk : 0 < 2 ^ k := by positivity
  exact ⟨(Nat.le_div_iff_mul_le hk).2 hlow, (Nat.div_lt_iff_lt_mul hk).2 hhigh⟩

theorem quantum_le {u k : Nat} (h : u < 2 ^ (53 + k)) : quantum u ≤ 2 ^ k := by
  by_cases hsmall : u < 2 ^ 52
  · rw [quantum_of_small hsmall]
    exact Nat.one_le_two_pow
  · obtain ⟨j, hlow, hhigh⟩ := bounds_of_large (Nat.le_of_not_lt hsmall)
    have hj : 52 + j < 53 + k :=
      (Nat.pow_lt_pow_iff_right (by omega)).1 (Nat.lt_of_le_of_lt hlow h)
    rw [quantum_of_bounds hlow hhigh]
    exact Nat.pow_le_pow_right (by omega) (by omega)

/-- A quotient is rounded to some steps of its grid: to few of one unit, or to as many as have 53
bits, perhaps one more. -/
theorem nearest_steps (p q : Nat) :
    p / q < 2 ^ 52 ∧ nearest p q ≤ p / q + 1 ∨
      ∃ k m, 2 ^ (52 + k) ≤ p / q ∧ p / q < 2 ^ (53 + k) ∧ nearest p q = m * 2 ^ k ∧
        2 ^ 52 ≤ m ∧ m ≤ 2 ^ 53 := by
  have hsteps : nearest p q = roundDiv p (q * quantum (p / q)) * quantum (p / q) := rfl
  by_cases hsmall : p / q < 2 ^ 52
  · left
    rw [hsteps, quantum_of_small hsmall, Nat.mul_one, Nat.mul_one]
    exact ⟨hsmall, roundDiv_le p q⟩
  · obtain ⟨k, hlow, hhigh⟩ := bounds_of_large (Nat.le_of_not_lt hsmall)
    obtain ⟨hfew, hmany⟩ := steps_bounds hlow hhigh
    right
    rw [hsteps, quantum_of_bounds hlow hhigh]
    refine ⟨k, _, hlow, hhigh, rfl, ?_, ?_⟩
    · rw [Nat.div_div_eq_div_mul] at hfew
      exact le_trans hfew (le_roundDiv _ _)
    · rw [Nat.div_div_eq_div_mul] at hmany
      exact le_trans (roundDiv_le _ _) hmany

theorem quantum_dvd_nearest (p q : Nat) : quantum (nearest p q) ∣ nearest p q := by
  obtain ⟨hsmall, hle⟩ | ⟨k, m, -, -, hm, hfew, hmany⟩ := nearest_steps p q
  · have hone : quantum (nearest p q) ≤ 2 ^ 0 := quantum_le (by omega)
    rw [pow_zero] at hone
    rw [Nat.le_antisymm hone (quantum_pos _)]
    exact Nat.one_dvd _
  · rw [hm]
    have hkpos : 0 < 2 ^ k := by positivity
    rcases Nat.lt_or_eq_of_le hmany with hlt | heq
    · rw [quantum_of_bounds (k := k)]
      · exact Nat.dvd_mul_left _ _
      · rw [pow_add]
        exact Nat.mul_le_mul_right _ hfew
      · rw [pow_add]
        exact Nat.mul_lt_mul_of_pos_right hlt hkpos
    · rw [heq, ← pow_add, quantum_of_bounds (k := k + 1)]
      · exact pow_dvd_pow 2 (by omega)
      · exact Nat.le_of_eq (by congr 1; omega)
      · exact Nat.pow_lt_pow_right (by omega) (by omega)

theorem nearest_lt_iff {u k : Nat} (hlow : 2 ^ (53 + k) ≤ u) (hhigh : u < 2 ^ (54 + k)) :
    nearest u 1 < 2 ^ (54 + k) ↔ u + 2 ^ k < 2 ^ (54 + k) := by
  have hlow' : 2 ^ (52 + (k + 1)) ≤ u := by rwa [show 52 + (k + 1) = 53 + k by omega]
  have hhigh' : u < 2 ^ (53 + (k + 1)) := by rwa [show 53 + (k + 1) = 54 + k by omega]
  obtain ⟨-, hmany⟩ := steps_bounds hlow' hhigh'
  have hkpos : 0 < 2 ^ k := by positivity
  have hstep : 2 ^ (k + 1) = 2 * 2 ^ k := by rw [pow_succ, Nat.mul_comm]
  have htop : 2 ^ (54 + k) = 2 ^ 53 * 2 ^ (k + 1) := by
    rw [← pow_add]
    congr 1
    omega
  have hu : 2 ^ (k + 1) * (u / 2 ^ (k + 1)) + u % 2 ^ (k + 1) = u := Nat.div_add_mod u _
  have hrest : u % 2 ^ (k + 1) < 2 ^ (k + 1) := Nat.mod_lt u (by positivity)
  rw [nearest_eq, quantum_of_bounds hlow' hhigh', htop,
    Nat.mul_lt_mul_right (by positivity : 0 < 2 ^ (k + 1)), roundDiv]
  generalize u / 2 ^ (k + 1) = d at *
  generalize u % 2 ^ (k + 1) = r at *
  rw [hstep] at *
  generalize 2 ^ k = s at *
  -- Only the last step below the power can reach it, and its number is odd.
  by_cases hlast : d = 2 ^ 53 - 1
  · subst hlast
    split <;> omega
  · have hfar : 2 * s * (d + 1) ≤ 2 * s * (2 ^ 53 - 1) := Nat.mul_le_mul_left _ (by omega)
    rw [Nat.mul_add, Nat.mul_one] at hfar
    split <;> omega

theorem nearest_le (u : Nat) : nearest u 1 ≤ u + quantum u := by
  rw [nearest_eq]
  calc roundDiv u (quantum u) * quantum u ≤ (u / quantum u + 1) * quantum u :=
        Nat.mul_le_mul_right _ (roundDiv_le _ _)
    _ = u / quantum u * quantum u + quantum u := by rw [Nat.add_mul, Nat.one_mul]
    _ ≤ u + quantum u := Nat.add_le_add_right (Nat.div_mul_le_self u _) _

theorem nearest_lt_pow_iff (u e k : Nat) (he : e = 54 + k) :
    nearest u 1 < 2 ^ e ↔ u + 2 ^ k < 2 ^ e := by
  subst he
  have hdouble : 2 ^ (54 + k) = 2 * 2 ^ (53 + k) := by
    rw [← pow_succ']
    congr 1
    omega
  rcases Nat.lt_or_ge u (2 ^ (53 + k)) with hsmall | hlarge
  · have hnearest := nearest_le u
    have hquantum := quantum_le hsmall
    have hk : 2 ^ k < 2 ^ (53 + k) := Nat.pow_lt_pow_right (by omega) (by omega)
    omega
  · rcases Nat.lt_or_ge u (2 ^ (54 + k)) with hbelow | habove
    · exact nearest_lt_iff hlarge hbelow
    · have hpos : 0 < 2 ^ (54 + k) := by positivity
      have hk : 0 < 2 ^ k := by positivity
      have hlog : 54 + k ≤ u.log2 := (Nat.le_log2 (by omega)).2 habove
      have hpow : 2 ^ (54 + k) ≤ 2 ^ u.log2 := Nat.pow_le_pow_right (by omega) hlog
      have hnearest := pow_log2_le_nearest (p := u) (q := 1) (by rw [Nat.div_one]; omega)
      rw [Nat.div_one] at hnearest
      omega

theorem representable_nearest_iff (u : Nat) :
    Representable (nearest u 1) ↔ u + 2 ^ 2044 < 2 ^ 2098 := by
  have hpow := nearest_lt_pow_iff u 2098 2044 rfl
  have htop : ∀ e, Nat.pow 2 e = 2 ^ e := fun _ => rfl
  rewrite [← hpow, Representable, htop 2098]
  exact and_iff_right (quantum_dvd_nearest u 1)

theorem ofInt?_cases (n : Int) :
    (∃ d, Representable (nearest (n.natAbs * one) 1) ∧ ofInt? n = some d ∧ d.isFinite = true) ∨
      ¬Representable (nearest (n.natAbs * one) 1) ∧ ofInt? n = none := by
  rw [ofInt?, ofRatio, ofUnits]
  generalize nearest (n.natAbs * one) 1 = u
  by_cases h : Representable u
  · rw [dif_pos h]
    exact Or.inl ⟨_, h, rfl, rfl⟩
  · rw [dif_neg h]
    exact Or.inr ⟨h, rfl⟩

/-- A whole number has no double exactly from half a step below the power of two on that follows
the largest double. -/
theorem ofInt?_eq_none_iff (n : Int) : ofInt? n = none ↔ 2 ^ 1024 ≤ n.natAbs + 2 ^ 970 := by
  have hscale : n.natAbs * one + 2 ^ 2044 < 2 ^ 2098 ↔ n.natAbs + 2 ^ 970 < 2 ^ 1024 := by
    have hhalf : 2 ^ 2044 = 2 ^ 970 * one := by rw [one_eq, ← pow_add]
    have htop : 2 ^ 2098 = 2 ^ 1024 * one := by rw [one_eq, ← pow_add]
    rw [hhalf, htop, ← Nat.add_mul]
    exact Nat.mul_lt_mul_right one_pos
  have hgrid := (representable_nearest_iff (n.natAbs * one)).trans hscale
  obtain ⟨d, hrep, hd, -⟩ | ⟨hrep, hd⟩ := ofInt?_cases n
  · rw [hd]
    exact iff_of_false (Option.some_ne_none d) (Nat.not_le_of_lt (hgrid.1 hrep))
  · rw [hd]
    exact iff_of_true rfl (Nat.le_of_not_lt fun h => hrep (hgrid.2 h))

theorem isFinite_of_ofInt? {n : Int} {d : Double} (h : ofInt? n = some d) : d.isFinite = true := by
  obtain ⟨e, -, he, hfinite⟩ | ⟨-, hnone⟩ := ofInt?_cases n
  · rw [h] at he
    obtain rfl := Option.some.inj he
    exact hfinite
  · rw [h] at hnone
    cases hnone

end HostTelemetry.Double
