import HostTelemetry.Proofs.Distribution.Bounded
import Mathlib.Control.Monad.Basic

/-!
# Draws within a range

A bounded draw makes the plain draw and moves it into a range that may be open at either end. Which
number comes out depends only on where the draw lies, and a greater draw never comes out lower.
-/

set_option autoImplicit false

namespace HostTelemetry

namespace Double.Rank

variable {p q r : Rank}

theorem lt_of_lt_of_not_lt (h : p.lt q = true) (h' : r.lt q = false) : p.lt r = true := by
  cases p <;> cases q <;> cases r <;> simp_all [lt]
  omega

theorem lt_of_not_lt_of_lt (h : q.lt p = false) (h' : q.lt r = true) : p.lt r = true := by
  cases p <;> cases q <;> cases r <;> simp_all [lt]
  omega

end Double.Rank

namespace Number

variable {x y z : Number}

theorem rank?_eq_none_iff : x.rank? = none ↔ x = .double .nan := by
  cases x with
  | bool b => exact iff_of_false nofun nofun
  | int n => exact iff_of_false nofun nofun
  | double d => cases d <;> simp [rank?, Double.rank?]

theorem exists_rank (h : x ≠ .double .nan) : ∃ p, x.rank? = some p :=
  Option.ne_none_iff_exists'.1 (mt rank?_eq_none_iff.1 h)

namespace AtMost

theorem not_lt (h : x.AtMost y) : y.lt x = false := by
  obtain ⟨p, q, hp, hq, hpq⟩ := h
  simp [lt, hp, hq, hpq]

theorem false_of_lt (h : x.AtMost y) (h' : y.lt x = true) : False := by
  rw [h.not_lt] at h'
  cases h'

end AtMost

theorem lt_of_lt_of_atMost (h : x.lt y = true) (h' : y.AtMost z) : x.lt z = true := by
  obtain ⟨p, q, hp, hq, hpq⟩ := (lt_iff x y).1 h
  obtain ⟨q', r, hq', hr, hqr⟩ := h'
  rw [hq] at hq'
  cases hq'
  exact (lt_iff x z).2 ⟨p, r, hp, hr, Double.Rank.lt_of_lt_of_not_lt hpq hqr⟩

theorem lt_of_atMost_of_lt (h : x.AtMost y) (h' : y.lt z = true) : x.lt z = true := by
  obtain ⟨p, q, hp, hq, hpq⟩ := h
  obtain ⟨q', r, hq', hr, hqr⟩ := (lt_iff y z).1 h'
  rw [hq] at hq'
  cases hq'
  exact (lt_iff x z).2 ⟨p, r, hp, hr, Double.Rank.lt_of_not_lt_of_lt hpq hqr⟩

theorem not_lt_nan : x.lt (.double .nan) = false := by
  unfold lt
  cases x.rank? <;> rfl

section

variable {b : Number}

theorem le_atLeast (hb : b ≠ .double .nan) (x : Number) : b.AtMost (b.atLeast x) := by
  obtain ⟨p, hp⟩ := exists_rank hb
  rcases h : b.lt x with _ | _
  · rw [atLeast_of_not_lt h]
    exact .refl hp
  · rw [atLeast_of_lt h]
    exact .of_lt h

theorem atMost_le (hb : b ≠ .double .nan) (x : Number) : (b.atMost x).AtMost b := by
  obtain ⟨p, hp⟩ := exists_rank hb
  rcases h : x.lt b with _ | _
  · rw [atMost_bound h]
    exact .refl hp
  · rw [atMost_of_lt h]
    exact .of_lt h

theorem atLeast_mono (hb : b ≠ .double .nan) (h : x.AtMost y) :
    (b.atLeast x).AtMost (b.atLeast y) := by
  rcases hx : b.lt x with _ | _
  · rw [atLeast_of_not_lt hx]
    exact le_atLeast hb y
  · rw [atLeast_of_lt hx, atLeast_of_lt (lt_of_lt_of_atMost hx h)]
    exact h

theorem atMost_mono (hb : b ≠ .double .nan) (h : x.AtMost y) :
    (b.atMost x).AtMost (b.atMost y) := by
  rcases hy : y.lt b with _ | _
  · rw [atMost_bound hy]
    exact atMost_le hb x
  · rw [atMost_of_lt hy, atMost_of_lt (lt_of_atMost_of_lt h hy)]
    exact h

end

variable {low high : Option Number}

structure Range (low high : Option Number) : Prop where
  low_ne : ∀ a ∈ low, a ≠ .double .nan
  high_ne : ∀ b ∈ high, b ≠ .double .nan
  ordered : ∀ a ∈ low, ∀ b ∈ high, a.AtMost b

/-- Where a number lands that is moved up to the lower end, and then down to the upper one. -/
inductive Lands (low high : Option Number) (x : Number) : Number → Prop
  | inside (above : ∀ a ∈ low, a.lt x = true) (below : ∀ b ∈ high, x.lt b = true) :
      Lands low high x x
  | low {a : Number} (hlow : a ∈ low) (reached : a.lt x = false)
      (room : ∀ b ∈ high, a.lt b = true) : Lands low high x a
  | high {b : Number} (hhigh : b ∈ high) (above : ∀ a ∈ low, a.lt x = true)
      (reached : x.lt b = false) : Lands low high x b
  | level {a b : Number} (hlow : a ∈ low) (hhigh : b ∈ high) (reached : a.lt x = false)
      (room : a.lt b = false) : Lands low high x b

theorem Lands.down {r : Number} (h : Distribution.bounded none high x = r) :
    Lands none high x r := by
  subst h
  cases high with
  | none =>
    show Lands none none x x
    exact .inside (by simp) (by simp)
  | some b =>
    show Lands none (some b) x (b.atMost x)
    rcases h : x.lt b with _ | _
    · rw [atMost_bound h]
      exact .high (Option.mem_some_self b) (by simp) h
    · rw [atMost_of_lt h]
      exact .inside (by simp) (by simpa using h)

theorem bounded_lands (low high : Option Number) (x : Number) :
    Lands low high x (Distribution.bounded low high x) := by
  cases low with
  | none => exact .down rfl
  | some a =>
    rw [bounded_some]
    rcases h : a.lt x with _ | _
    · rw [atLeast_of_not_lt h]
      generalize hr : Distribution.bounded none high a = r
      cases Lands.down hr with
      | low hnone | level hnone => cases hnone
      | inside _ below => exact .low (Option.mem_some_self _) h below
      | high hhigh _ reached => exact .level (Option.mem_some_self a) hhigh h reached
    · rw [atLeast_of_lt h]
      have habove : ∀ c ∈ some a, c.lt x = true := by simpa using h
      generalize hr : Distribution.bounded none high x = r
      cases Lands.down hr with
      | low hnone | level hnone => cases hnone
      | inside _ below => exact .inside habove below
      | high hhigh _ reached => exact .high hhigh habove reached

/-- What comes of a number in a range. It is in the range. Strictly inside it is the number itself;
at an end or beyond it is that end, with the kind of number that the end is; of two ends at one
place it is the upper one. NaN goes to one of the ends. -/
structure Held (low high : Option Number) (x r : Number) : Prop where
  least : ∀ a ∈ low, a.AtMost r
  most : ∀ b ∈ high, r.AtMost b
  inside : (∀ a ∈ low, a.lt x = true) → (∀ b ∈ high, x.lt b = true) → r = x
  below : ∀ a ∈ low, x.AtMost a → (∀ b ∈ high, a.lt b = true) → r = a
  above : ∀ b ∈ high, b.AtMost x → r = b
  level : ∀ a ∈ low, ∀ b ∈ high, b.AtMost a → r = b
  strange : x = .double .nan → low.isSome ∨ high.isSome → r ∈ low ∨ r ∈ high

theorem Lands.held {r : Number} (range : Range low high) (h : Lands low high x r) :
    Held low high x r := by
  cases h with
  | inside above below =>
    constructor
    case least => exact fun a ha => .of_lt (above a ha)
    case most => exact fun b hb => .of_lt (below b hb)
    case inside => exact fun _ _ => rfl
    case below => exact fun a ha hxa _ => (hxa.false_of_lt (above a ha)).elim
    case above => exact fun b hb hbx => (hbx.false_of_lt (below b hb)).elim
    case level =>
      intro a ha b hb hba
      have hab : a.lt b = true := lt_of_lt_of_atMost (above a ha) (.of_lt (below b hb))
      exact (hba.false_of_lt hab).elim
    case strange =>
      rintro rfl (hlow | hhigh)
      · obtain ⟨a, ha⟩ := Option.isSome_iff_exists.1 hlow
        exact absurd (above a ha) (by rw [not_lt_nan]; exact Bool.false_ne_true)
      · obtain ⟨b, hb⟩ := Option.isSome_iff_exists.1 hhigh
        exact absurd (below b hb) Bool.false_ne_true
  | low hlow reached room =>
    obtain ⟨p, hp⟩ := exists_rank (range.low_ne r hlow)
    constructor
    case least => exact fun c hc => Option.mem_unique hlow hc ▸ .refl hp
    case most => exact fun b hb => .of_lt (room b hb)
    case inside => exact fun above _ => absurd (above r hlow) (Bool.eq_false_iff.1 reached)
    case below => exact fun c hc _ _ => Option.mem_unique hlow hc
    case above =>
      intro b hb hbx
      exact absurd (lt_of_lt_of_atMost (room b hb) hbx) (Bool.eq_false_iff.1 reached)
    case level =>
      intro c hc b hb hbc
      rw [← Option.mem_unique hlow hc] at hbc
      exact (hbc.false_of_lt (room b hb)).elim
    case strange => exact fun _ _ => Or.inl hlow
  | high hhigh above reached =>
    obtain ⟨q, hq⟩ := exists_rank (range.high_ne r hhigh)
    constructor
    case least => exact fun a ha => range.ordered a ha r hhigh
    case most => exact fun c hc => Option.mem_unique hhigh hc ▸ .refl hq
    case inside => exact fun _ below => absurd (below r hhigh) (Bool.eq_false_iff.1 reached)
    case below => exact fun a ha hxa _ => (hxa.false_of_lt (above a ha)).elim
    case above => exact fun c hc _ => Option.mem_unique hhigh hc
    case level => exact fun _ _ c hc _ => Option.mem_unique hhigh hc
    case strange => exact fun _ _ => Or.inr hhigh
  | @level a _ hlow hhigh reached room =>
    obtain ⟨q, hq⟩ := exists_rank (range.high_ne r hhigh)
    constructor
    case least => exact fun c hc => range.ordered c hc r hhigh
    case most => exact fun c hc => Option.mem_unique hhigh hc ▸ .refl hq
    case inside => exact fun above _ => absurd (above a hlow) (Bool.eq_false_iff.1 reached)
    case below =>
      intro c hc _ hroom
      rw [← Option.mem_unique hlow hc] at hroom
      exact absurd (hroom r hhigh) (Bool.eq_false_iff.1 room)
    case above => exact fun c hc _ => Option.mem_unique hhigh hc
    case level => exact fun _ _ c hc _ => Option.mem_unique hhigh hc
    case strange => exact fun _ _ => Or.inr hhigh

theorem bounded_mono (range : Range low high) (h : x.AtMost y) :
    (Distribution.bounded low high x).AtMost (Distribution.bounded low high y) := by
  have hdown : ∀ {u v : Number}, u.AtMost v →
      (Distribution.bounded none high u).AtMost (Distribution.bounded none high v) := by
    intro u v huv
    cases high with
    | none => exact huv
    | some b => exact atMost_mono (range.high_ne b rfl) huv
  cases low with
  | none => exact hdown h
  | some a =>
    rw [bounded_some, bounded_some]
    exact hdown (atLeast_mono (range.low_ne a rfl) h)

end Number

namespace Distribution

variable {σ : Type} [Source σ]

/-- A bounded draw takes from the source what the plain draw takes, and fails where it fails. What
it gives is the number that was drawn, held in the range. Of two draws the one that is not above the
other is not above it in the range. -/
theorem sampleBounded_held (d : Distribution) {low high : Option Number}
    (range : Number.Range low high) :
    (∀ s : σ, (d.sampleBounded low high s).2 = (d.sample s).2) ∧
    (∀ (s : σ) f, (d.sampleBounded low high s).1 = .error f ↔ (d.sample s).1 = .error f) ∧
    (∀ (s : σ) x, (d.sample s).1 = .ok x →
      ∃ r, (d.sampleBounded low high s).1 = .ok r ∧ Number.Held low high x r) ∧
    ∀ (s t : σ) x y p q, (d.sample s).1 = .ok x → (d.sample t).1 = .ok y → x.AtMost y →
      (d.sampleBounded low high s).1 = .ok p → (d.sampleBounded low high t).1 = .ok q →
      p.AtMost q := by
  simp only [sampleBounded, true_and, implies_true]
  refine ⟨fun s f => ?_, fun s x hx => ?_, fun s t x y p q hx hy hxy hp hq => ?_⟩
  · cases (d.sample s).1 <;> simp [Except.map]
  · rw [hx]
    exact ⟨_, rfl, (Number.bounded_lands low high x).held range⟩
  · rw [hx] at hp
    rw [hy] at hq
    cases hp
    cases hq
    exact Number.bounded_mono range hxy

def threeQuarters : Paired .machine (Cycle Double) :=
  ⟨Cycle.ofList [Double.ofRatio false 3 4], none⟩

theorem sampleBounded_held_whole :
    Number.Range (some (.double (Double.zero true))) (some (.int 100)) ∧
    ((uniform (.int 0) (.int 200)).sample threeQuarters).1 =
      .ok (.double (Double.ofRatio false 150 1)) ∧
    ((uniform (.int 0) (.int 200)).sampleBounded (some (.double (Double.zero true)))
      (some (.int 100)) threeQuarters).1 = .ok (.int 100) := by
  have hends : Number.lt (.double (Double.zero true)) (.int 100) = true := by decide +kernel
  have range : Number.Range (some (.double (Double.zero true))) (some (.int 100)) := by
    constructor
    case low_ne => simp [Double.zero]
    case high_ne => simp
    case ordered => simpa using Number.AtMost.of_lt hends
  have hdraw : ((uniform (.int 0) (.int 200)).sample threeQuarters).1 =
      .ok (.double (Double.ofRatio false 150 1)) := by decide +kernel
  have hbeyond : Number.lt (.int 100) (.double (Double.ofRatio false 150 1)) = true := by
    decide +kernel
  obtain ⟨r, hr, held⟩ := (sampleBounded_held _ range).2.2.1 _ _ hdraw
  obtain rfl : r = .int 100 := held.above _ rfl (.of_lt hbeyond)
  exact ⟨range, hdraw, hr⟩

end Distribution

end HostTelemetry
