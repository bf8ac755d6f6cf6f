import HostTelemetry.Value.Printer

/-!
# Values without a text

A value has a text unless a whole number in it, at whatever depth, has more digits than can be
written.
-/

set_option autoImplicit false

namespace HostTelemetry

def Vast (n : Int) : Prop := Nat.pow 10 maxDigits ≤ n.natAbs

/-- A computation fails exactly if one of the numbers has no text, and only for that. -/
def FailsOn {α : Type} (numbers : List Int) (x : Except Fault α) : Prop :=
  ∀ f, x = .error f ↔ f = .tooManyDigits ∧ ∃ n ∈ numbers, Vast n

section

variable {α β : Type} {numbers more : List Int} {x : Except Fault α}

theorem FailsOn.ok (a : α) : FailsOn [] (.ok a : Except Fault α) := by
  intro f
  constructor
  · intro h
    cases h
  · rintro ⟨-, n, hn, -⟩
    cases hn

theorem FailsOn.bind {k : α → Except Fault β} (h : FailsOn numbers x)
    (hk : ∀ a, FailsOn more (k a)) : FailsOn (numbers ++ more) (x >>= k) := by
  intro f
  rcases x with g | a
  · show (.error g : Except Fault β) = .error f ↔ _
    obtain ⟨rfl, n, hn, hvast⟩ := (h g).1 rfl
    constructor
    · intro hf
      cases hf
      exact ⟨rfl, n, List.mem_append_left _ hn, hvast⟩
    · rintro ⟨rfl, -⟩
      rfl
  · show k a = .error f ↔ _
    rw [hk a f]
    constructor
    · rintro ⟨rfl, n, hn, hvast⟩
      exact ⟨rfl, n, List.mem_append_right _ hn, hvast⟩
    · rintro ⟨rfl, n, hn, hvast⟩
      obtain hn | hn := List.mem_append.1 hn
      · have := (h .tooManyDigits).2 ⟨rfl, n, hn, hvast⟩
        cases this
      · exact ⟨rfl, n, hn, hvast⟩

theorem FailsOn.map {k : α → Except Fault β} (h : FailsOn numbers x)
    (hk : ∀ a, FailsOn [] (k a)) : FailsOn numbers (x >>= k) := by
  simpa using h.bind hk

end

theorem intText_fails (n : Int) : FailsOn [n] (intText n) := by
  intro f
  unfold intText
  split
  · rename_i h
    constructor
    · intro hf
      cases hf
    · rintro ⟨-, m, hm, hvast⟩
      obtain rfl := List.mem_singleton.1 hm
      exact absurd h (Nat.not_lt.2 hvast)
  · rename_i h
    constructor
    · intro hf
      cases hf
      exact ⟨rfl, n, List.mem_singleton_self n, Nat.not_lt.1 h⟩
    · rintro ⟨rfl, -⟩
      rfl

namespace Value

mutual

def integers : Value → List Int
  | .int n => [n]
  | .fraction p q => [p, q]
  | .list xs | .tuple xs | .set xs => integersAll xs
  | .dict kvs => integersPairs kvs
  | .none | .bool _ | .double _ | .text _ | .bytes _ | .again _ | .path _ | .date _ | .stamp _
  | .decimal .. | .complex .. => []

def integersAll : List Value → List Int
  | [] => []
  | v :: vs => integers v ++ integersAll vs

def integersPairs : List (Value × Value) → List Int
  | [] => []
  | (k, v) :: kvs => integers k ++ integers v ++ integersPairs kvs

end

mutual

theorem shown_fails : (v : Value) → FailsOn v.integers v.shown
  | .none | .bool _ | .double _ | .text _ | .bytes _ | .again .list | .again .dict | .again .set
  | .path _ | .date _ | .stamp _ | .decimal .. | .complex .. => by
    rw [shown, integers]
    exact .ok _
  | .int n => by
    rw [shown, integers]
    exact intText_fails n
  | .list xs => by
    rw [shown, integers]
    exact (shownAll_fails xs).map fun ts => .ok _
  | .tuple xs => by
    rw [shown, integers]
    apply (shownAll_fails xs).map
    intro ts
    split <;> exact .ok _
  | .set xs => by
    rw [shown, integers]
    apply (shownAll_fails xs).map
    intro ts
    split <;> exact .ok _
  | .dict kvs => by
    rw [shown, integers]
    exact (shownPairs_fails kvs).map fun ts => .ok _
  | .fraction p q => by
    rw [shown, integers]
    exact (intText_fails p).bind fun s => (intText_fails q).map fun t => .ok _

theorem shownAll_fails : (vs : List Value) → FailsOn (integersAll vs) (shownAll vs)
  | [] => by
    rw [shownAll, integersAll]
    exact .ok _
  | v :: vs => by
    rw [shownAll, integersAll]
    exact (shown_fails v).bind fun t => (shownAll_fails vs).map fun ts => .ok _

theorem shownPairs_fails : (kvs : List (Value × Value)) →
    FailsOn (integersPairs kvs) (shownPairs kvs)
  | [] => by
    rw [shownPairs, integersPairs]
    exact .ok _
  | (k, v) :: kvs => by
    rw [shownPairs, integersPairs, List.append_assoc]
    exact (shown_fails k).bind fun s => (shown_fails v).bind fun t =>
      (shownPairs_fails kvs).map fun ts => .ok _

end

/-- The text in which a text is itself is missing for the same values. -/
theorem plain_fails (v : Value) : FailsOn v.integers v.plain := by
  cases v with
  | fraction p q =>
    rw [plain, integers]
    split
    · rename_i hq
      intro f
      rw [intText_fails p f]
      have hone : ¬Vast (q : Int) := by
        rw [hq]
        exact Nat.not_le.2 (Nat.one_lt_pow (by decide) (by decide))
      simp [hone]
    · exact (intText_fails p).bind fun s => (intText_fails q).map fun t => .ok _
  | text | path | date | stamp | decimal =>
    rw [plain, integers]
    exact .ok _
  | _ => exact shown_fails _

end Value

end HostTelemetry
