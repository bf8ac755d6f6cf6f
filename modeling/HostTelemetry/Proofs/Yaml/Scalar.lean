import HostTelemetry.Yaml.Scalar

/-!
# Scalars that are refused

A tag can ask for a kind of value that the text of a scalar has no form of, and a text can have the
form of a date that the calendar does not have. Each kind is refused in its own ways.
-/

set_option autoImplicit false

namespace HostTelemetry

def FailsOnly {α : Type} (P : Fault → Prop) (x : Except Fault α) : Prop :=
  ∀ f, x = .error f → P f

section

variable {α β : Type} {P : Fault → Prop} {x : Except Fault α}

theorem FailsOnly.ok (a : α) : FailsOnly P (.ok a) := by
  intro f h
  cases h

theorem FailsOnly.error {f : Fault} (h : P f) : FailsOnly P (.error f : Except Fault α) := by
  intro g hg
  cases hg
  exact h

theorem FailsOnly.bind {k : α → Except Fault β} (h : FailsOnly P x) (hk : ∀ a, FailsOnly P (k a)) :
    FailsOnly P (x >>= k) := by
  rcases x with f | a
  · intro g hg
    cases hg
    exact h f rfl
  · exact hk a

theorem FailsOnly.mapM {k : α → Except Fault β} (hk : ∀ a, FailsOnly P (k a)) (xs : List α) :
    FailsOnly P (xs.mapM k) := by
  induction xs with
  | nil => exact .ok _
  | cons a as ih =>
    rw [List.mapM_cons]
    exact (hk a).bind fun b => ih.bind fun bs => .ok _

end

namespace Yaml

/-- The ways in which the text of a scalar is refused for its kind. -/
inductive Refusal : NodeKind → Fault → Prop
  | truth (w : Text) : Refusal .bool (.notATruth w)
  | noInteger : Refusal .int .emptyNumber
  | integer (base : Nat) (t : Text) : Refusal .int (.notAnInteger base t)
  | numeral {digits : Nat} (many : Integer.maxDigits < digits) : Refusal .int (.numeral digits)
  | noDouble : Refusal .float .emptyNumber
  | double (t : Text) : Refusal .float (.notADouble t)
  | large : Refusal .float .tooLargeForDouble
  | stamp : Refusal .timestamp .notATimestamp
  | date (c : CalendarFault) : Refusal .timestamp (.calendar c)

theorem Refusal.kind_ne {k : NodeKind} {f : Fault} (h : Refusal k f) :
    f.kind ≠ .settings ∧ f.kind ≠ .yaml := by
  cases h <;> exact ⟨nofun, nofun⟩

def reader? : NodeKind → Option (Text → Except Fault Value)
  | .null => some fun _ => .ok .none
  | .bool => some boolOf
  | .int => some intOf
  | .float => some floatOf
  | .binary => some binaryOf
  | .timestamp => some timestampOf
  | .str => some fun t => .ok (.text t)
  | _ => none

theorem boolOf_fails (t : Text) : FailsOnly (Refusal .bool) (boolOf t) := by
  unfold boolOf
  dsimp only
  split
  · exact .ok _
  · split
    · exact .ok _
    · exact .error (.truth _)

theorem signOf_fails {k : NodeKind} (h : Refusal k .emptyNumber) (t : Text) :
    FailsOnly (Refusal k) (signOf t) := by
  unfold signOf
  split
  · exact .error h
  · exact .ok _

theorem read_fails (base : Nat) (t : Text) : FailsOnly (Refusal .int) (Integer.read base t) := by
  unfold Integer.read
  dsimp only
  split
  · exact .error (.integer base t)
  · split
    · exact .error (.integer base t)
    · split
      · exact .error (.integer base t)
      · split
        · rename_i h
          exact .error (.numeral h.2)
        · exact .ok _

theorem intOf_fails (t : Text) : FailsOnly (Refusal .int) (intOf t) := by
  unfold intOf
  apply (signOf_fails .noInteger _).bind
  rintro ⟨negative, body⟩
  dsimp only
  split
  · exact .ok _
  · split
    · exact (read_fails 2 _).bind fun n => .ok _
    · split
      · exact (read_fails 16 _).bind fun n => .ok _
      · split
        · exact .error .noInteger
        · split
          · exact (read_fails 8 _).bind fun n => .ok _
          · split
            · exact (FailsOnly.mapM (read_fails 10) _).bind fun parts => .ok _
            · exact (read_fails 10 _).bind fun n => .ok _

theorem doubleOf_fails (t : Text) : FailsOnly (Refusal .float) (doubleOf t) := by
  unfold doubleOf
  split
  · exact .ok _
  · exact .error (.double t)

-- The cases of a number and of its double are split for any branches: a split of the function
-- itself would have the double of a whole number computed.
section

variable {α : Type} {P : α → Prop} {a : Double → α}

theorem number_cases {b : Bool → α} {c : Int → α} (ha : ∀ d, P (a d)) (hb : ∀ t, P (b t))
    (hc : ∀ n, P (c n)) (x : Number) : P (match x with
      | .double d => a d
      | .bool t => b t
      | .int n => c n) := by
  cases x with
  | double d => exact ha d
  | bool t => exact hb t
  | int n => exact hc n

theorem option_cases {b : α} (ha : ∀ d, P (a d)) (hb : P b) (o : Option Double) : P (match o with
    | some d => a d
    | none => b) := by
  cases o with
  | some d => exact ha d
  | none => exact hb

end

theorem toDouble_fails (x : Number) : FailsOnly (Refusal .float) x.toDouble := by
  have hok : ∀ d : Double, FailsOnly (Refusal .float) (.ok d) := fun d => .ok d
  unfold Number.toDouble
  exact number_cases hok (fun t => hok _)
    (fun n => option_cases hok (.error .large) (Double.ofInt? n)) x

theorem mul_fails (p : Double) (n : Number) :
    FailsOnly (Refusal .float) ((Number.mul (.double p) n).bind Number.toDouble) := by
  have h : ∀ y : Except Fault Double, FailsOnly (Refusal .float) y → FailsOnly (Refusal .float)
      ((y.bind fun d => (.ok (.double (p.mul d)) : Except Fault Number)).bind Number.toDouble) := by
    intro y hy
    rcases y with f | d
    · exact hy
    · exact .ok _
  exact h _ (toDouble_fails n)

theorem sixtyDouble_fails (power : Int) (sum : Double) (ps : List Double) :
    FailsOnly (Refusal .float) (sixtyDouble power sum ps) := by
  induction ps generalizing power sum with
  | nil => exact .ok _
  | cons p ps ih => exact (mul_fails p (.int power)).bind fun x => ih _ _

theorem floatOf_fails (t : Text) : FailsOnly (Refusal .float) (floatOf t) := by
  unfold floatOf
  apply (signOf_fails .noDouble _).bind
  rintro ⟨negative, body⟩
  dsimp only
  split
  · exact .ok _
  · split
    · exact .ok _
    · split
      · exact (FailsOnly.mapM doubleOf_fails _).bind fun parts =>
          (sixtyDouble_fails _ _ _).bind fun x => .ok _
      · exact (doubleOf_fails _).bind fun x => .ok _

theorem zoneOf_fails (t : Text) : FailsOnly (Refusal .timestamp) (zoneOf t) := by
  unfold zoneOf
  split
  · exact .ok _
  · split
    · exact .ok _
    · dsimp only
      split
      · exact .ok _
      · exact .error (.date _)

theorem timestampOf_fails (t : Text) : FailsOnly (Refusal .timestamp) (timestampOf t) := by
  unfold timestampOf
  split
  · exact .error .stamp
  · dsimp only
    split
    · exact .error .stamp
    · split
      · split
        · exact .ok _
        · exact .error (.date _)
      · apply (zoneOf_fails _).bind
        intro zone
        split
        · exact .ok _
        · exact .error (.date _)

theorem binaryOf_fails (t : Text) : FailsOnly (· = .yaml) (binaryOf t) := by
  unfold binaryOf
  split
  · exact .error rfl
  · dsimp only
    split
    · exact .ok _
    · exact .error rfl

theorem reader?_fails {k : NodeKind} {read : Text → Except Fault Value} (h : reader? k = some read)
    (t : Text) : FailsOnly (fun f => f = .yaml ∨ Refusal k f) (read t) := by
  intro f hf
  cases k with
  | null | str =>
    cases h
    cases hf
  | bool =>
    cases h
    exact Or.inr (boolOf_fails t f hf)
  | int =>
    cases h
    exact Or.inr (intOf_fails t f hf)
  | float =>
    cases h
    exact Or.inr (floatOf_fails t f hf)
  | timestamp =>
    cases h
    exact Or.inr (timestampOf_fails t f hf)
  | binary =>
    cases h
    exact Or.inl (binaryOf_fails t f hf)
  | _ => cases h

end Yaml

end HostTelemetry
