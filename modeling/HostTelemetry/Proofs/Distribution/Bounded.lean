import HostTelemetry.Distribution

/-!
# Numbers moved to their bounds

The places of numbers are in a linear order, and NaN has none. A number between two bounds stays
as it is; any other one, NaN included, becomes one of the bounds.
-/

set_option autoImplicit false

namespace HostTelemetry

open Distribution (bounded)

namespace Double.Rank

theorem lt_irrefl (a : Rank) : a.lt a = false := by
  cases a <;> simp [lt]

theorem lt_asymm {a b : Rank} (h : a.lt b = true) : b.lt a = false := by
  cases a <;> cases b <;> simp_all [lt]
  omega

end Double.Rank

namespace Number

/-- A number that is not above another one; NaN is neither. -/
def AtMost (x y : Number) : Prop :=
  ∃ p q, x.rank? = some p ∧ y.rank? = some q ∧ q.lt p = false

theorem lt_iff (x y : Number) :
    x.lt y = true ↔ ∃ p q, x.rank? = some p ∧ y.rank? = some q ∧ p.lt q = true := by
  unfold lt
  cases hx : x.rank? <;> cases hy : y.rank? <;> simp

theorem AtMost.of_lt {x y : Number} (h : x.lt y = true) : x.AtMost y := by
  obtain ⟨p, q, hp, hq, hlt⟩ := (lt_iff x y).1 h
  exact ⟨p, q, hp, hq, Double.Rank.lt_asymm hlt⟩

theorem AtMost.refl {x : Number} {p : Double.Rank} (h : x.rank? = some p) : x.AtMost x :=
  ⟨p, p, h, h, p.lt_irrefl⟩

section

variable {b low x : Number} {high : Option Number}

theorem atLeast_of_lt (h : b.lt x = true) : b.atLeast x = x := if_pos h

theorem atLeast_of_not_lt (h : b.lt x = false) : b.atLeast x = b := by
  rw [atLeast, h, if_neg Bool.false_ne_true]

theorem atMost_of_lt (h : x.lt b = true) : b.atMost x = x := if_pos h

theorem atMost_bound (h : x.lt b = false) : b.atMost x = b := by
  rw [atMost, h, if_neg Bool.false_ne_true]

theorem bounded_some (a : Number) (high : Option Number) (x : Number) :
    bounded (some a) high x = bounded none high (a.atLeast x) := rfl

theorem bounded_inside (hlow : low.lt x = true) (hhigh : ∀ b ∈ high, x.lt b = true) :
    bounded (some low) high x = x := by
  rw [bounded_some, atLeast_of_lt hlow]
  cases high with
  | none => rfl
  | some b => exact atMost_of_lt (hhigh b rfl)

theorem bounded_below (hx : low.lt x = false) (hhigh : ∀ b ∈ high, low.lt b = true) :
    bounded (some low) high x = low := by
  rw [bounded_some, atLeast_of_not_lt hx]
  cases high with
  | none => rfl
  | some b => exact atMost_of_lt (hhigh b rfl)

theorem bounded_above (hlow : low.lt x = true) (hx : x.lt b = false) :
    bounded (some low) (some b) x = b := by
  rw [bounded_some, atLeast_of_lt hlow]
  exact atMost_bound hx

end

/-- A number strictly between its bounds is as it was; one that has reached a bound, or gone past
it, is that bound; what has no place, as NaN, is the lower bound. -/
structure Clamps (low : Number) (high : Option Number) (x y : Number) : Prop where
  inside : low.lt x = true → (∀ b ∈ high, x.lt b = true) → y = x
  below : low.lt x = false → y = low
  above : ∀ b ∈ high, low.lt x = true → x.lt b = false → y = b
  least : low.AtMost y
  most : ∀ b ∈ high, y.AtMost b

theorem bounded_clamps {low : Number} {high : Option Number} {p : Double.Rank}
    (hlow : low.rank? = some p) (hhigh : ∀ b ∈ high, low.lt b = true) (x : Number) :
    Clamps low high x (bounded (some low) high x) := by
  have hsides : (bounded (some low) high x = low ∨ low.lt (bounded (some low) high x) = true) ∧
      ∀ b ∈ high, bounded (some low) high x = b ∨ (bounded (some low) high x).lt b = true := by
    by_cases hx : low.lt x = true
    · by_cases hinside : ∀ b ∈ high, x.lt b = true
      · rw [bounded_inside hx hinside]
        exact ⟨Or.inr hx, fun b hb => Or.inr (hinside b hb)⟩
      · obtain ⟨b, hout⟩ := Classical.not_forall.1 hinside
        obtain ⟨rfl, hxb⟩ := Classical.not_imp.1 hout
        rw [bounded_above hx (Bool.eq_false_iff.2 hxb)]
        exact ⟨Or.inr (hhigh b rfl), fun c hc => Or.inl (Option.some.inj hc)⟩
    · rw [bounded_below (Bool.eq_false_iff.2 hx) hhigh]
      exact ⟨Or.inl rfl, fun b hb => Or.inr (hhigh b hb)⟩
  constructor
  case inside => exact bounded_inside
  case below => exact fun hx => bounded_below hx hhigh
  case above =>
    rintro b rfl hx hxb
    exact bounded_above hx hxb
  case least =>
    obtain heq | hlt := hsides.1
    · rw [heq]
      exact .refl hlow
    · exact .of_lt hlt
  case most =>
    intro b hb
    obtain heq | hlt := hsides.2 b hb
    · obtain ⟨-, q, -, hq, -⟩ := (lt_iff low b).1 (hhigh b hb)
      rw [heq]
      exact .refl hq
    · exact .of_lt hlt

end Number

end HostTelemetry
