import HostTelemetry.Proofs.Value.Shown
import HostTelemetry.Settings.Basic

/-!
# What a layer of settings is refused for

A layer is refused as settings: for keys that are not known, or for the first entry whose value is
none of its key. What leaves as another failure is an unknown key that is no text, and a value whose
text the refusal would show, but which has none.
-/

set_option autoImplicit false

namespace HostTelemetry.Settings

/-- A check fails because a number has no text if there is such a number, and otherwise only as
settings. -/
def Settles {α : Type} (numbers : List Int) (x : Except Failure α) : Prop :=
  ((∃ n ∈ numbers, Vast n) → x = .error (.passed .tooManyDigits)) ∧
    ((¬∃ n ∈ numbers, Vast n) → ∀ e, x = .error e → e.kind = .settings)

section

variable {α β : Type} {numbers : List Int}

theorem Settles.ok (a : α) : Settles [] (.ok a : Except Failure α) := by
  constructor
  · rintro ⟨n, hn, -⟩
    cases hn
  · intro _ e h
    cases h

theorem Settles.map {x : Except Failure α} (h : Settles numbers x) (g : α → β) :
    Settles numbers (x.map g) := by
  rcases x with e | a
  · refine ⟨fun hvast => ?_, fun hvast e' he => ?_⟩
    · rw [h.1 hvast]
      rfl
    · cases he
      exact h.2 hvast e rfl
  · refine ⟨fun hvast => ?_, fun hvast e he => ?_⟩
    · cases h.1 hvast
    · cases he

theorem Settles.of_shown (v : Value) {k : Text → Except Failure α}
    (hk : ∀ t e, k t = .error e → e.kind = .settings) :
    Settles v.integers (shown v >>= k) := by
  constructor
  · intro hvast
    rw [shown, (v.shown_fails .tooManyDigits).2 ⟨rfl, hvast⟩]
    rfl
  · intro hvast e he
    rcases ht : v.shown with f | t
    · exact absurd ((v.shown_fails f).1 ht).2 hvast
    · rw [shown, ht] at he
      exact hk t e he

end

theorem truthOf_settles (key : Key) (v : Value) : Settles v.integers (truthOf key v) := by
  cases v with
  | bool b => exact .ok b
  | _ =>
    refine Settles.of_shown _ fun t e h => ?_
    cases h
    rfl

theorem pathOf_settles (key : Key) (v : Value) : Settles v.integers (pathOf key v) := by
  cases v with
  | text t =>
    rw [pathOf]
    split
    · refine Settles.of_shown (.text t) fun t e h => ?_
      cases h
      rfl
    · exact .ok _
  | path p =>
    rw [pathOf]
    split
    · refine Settles.of_shown (.path p) fun t e h => ?_
      cases h
      rfl
    · exact .ok _
  | _ =>
    refine Settles.of_shown _ fun t e h => ?_
    cases h
    rfl

theorem levelOf_settles (v : Value) : Settles v.integers (levelOf v) := by
  constructor
  · intro hvast
    rw [levelOf, (v.plain_fails .tooManyDigits).2 ⟨rfl, hvast⟩]
  · intro hvast e he
    rcases ht : v.plain with f | t
    · exact absurd ((v.plain_fails f).1 ht).2 hvast
    · rw [levelOf, ht] at he
      dsimp only at he
      split at he
      · cases he
      · refine (Settles.of_shown v fun s e' hs => ?_).2 hvast e he
        cases hs
        rfl

theorem check_settles (key : Key) (v : Value) : Settles v.integers (check key v) := by
  cases key with
  | append => exact (truthOf_settles .append v).map Change.append
  | clamp => exact (truthOf_settles .clamp v).map Change.clamp
  | outputPath => exact (pathOf_settles .outputPath v).map Change.outputPath
  | metricsPath =>
    have hsome := (pathOf_settles .metricsPath v).map (Change.metricsPath ∘ some)
    cases v with
    | none => exact .ok _
    | _ => exact hsome
  | logLevel => exact (levelOf_settles v).map Change.logLevel

theorem unknown_text {v : Value} {vs : List Value} (h : ∀ k ∈ v :: vs, ∃ t, k = .text t) :
    (unknown v vs).kind = .settings := by
  have hsorts : (((v :: vs).map KeySort.of).all fun k => [KeySort.text].contains k) = true := by
    rw [List.all_map, List.all_eq_true]
    intro k hk
    obtain ⟨t, rfl⟩ := h k hk
    rfl
  unfold unknown
  dsimp only
  rw [if_pos hsorts]
  rfl

theorem unknown_odd {v : Value} {vs : List Value} (h : ∃ k ∈ v :: vs, ∀ t, k ≠ .text t) :
    ∃ f, unknown v vs = .passed f ∧ f.kind = .type := by
  have hsorts : ¬(((v :: vs).map KeySort.of).all fun k => [KeySort.text].contains k) = true := by
    rw [List.all_map, List.all_eq_true]
    intro hall
    obtain ⟨k, hk, hodd⟩ := h
    have := hall k hk
    cases k with
    | text t => exact hodd t rfl
    | stamp s =>
      simp only [Function.comp_apply, KeySort.of] at this
      split at this <;> cases this
    | _ => cases this
  unfold unknown
  dsimp only
  rw [if_neg hsorts]
  split
  · exact ⟨_, rfl, rfl⟩
  · split
    · exact ⟨_, rfl, rfl⟩
    · split <;> exact ⟨_, rfl, rfl⟩

section

variable {α β ε : Type} {f : α → Except ε β}

theorem mapM_error_iff {xs : List α} {e : ε} :
    xs.mapM f = .error e ↔ ∃ before x after, xs = before ++ x :: after ∧
      (∀ y ∈ before, ∃ b, f y = .ok b) ∧ f x = .error e := by
  induction xs with
  | nil =>
    constructor
    · intro h
      cases h
    · rintro ⟨before, x, after, h, -⟩
      simp at h
  | cons y ys ih =>
    rw [List.mapM_cons]
    rcases hy : f y with e' | b
    · constructor
      · intro h
        cases h
        exact ⟨[], y, ys, rfl, fun _ h => absurd h List.not_mem_nil, hy⟩
      · rintro ⟨before, x, after, hsplit, hbefore, hx⟩
        rcases before with _ | ⟨z, before⟩
        · cases hsplit
          rw [hy] at hx
          cases hx
          rfl
        · cases hsplit
          obtain ⟨b, hb⟩ := hbefore y List.mem_cons_self
          rw [hy] at hb
          cases hb
    · have hbind : (do let b ← (.ok b : Except ε β); let bs ← ys.mapM f; pure (b :: bs)) = .error e ↔
          ys.mapM f = .error e := by
        rcases ys.mapM f with e' | bs
        · exact Iff.rfl
        · constructor <;> intro h <;> cases h
      rw [hbind, ih]
      constructor
      · rintro ⟨before, x, after, rfl, hbefore, hx⟩
        exact ⟨y :: before, x, after, rfl, List.forall_mem_cons.2 ⟨⟨b, hy⟩, hbefore⟩, hx⟩
      · rintro ⟨before, x, after, hsplit, hbefore, hx⟩
        rcases before with _ | ⟨z, before⟩
        · cases hsplit
          rw [hy] at hx
          cases hx
        · cases hsplit
          exact ⟨before, x, after, rfl, (List.forall_mem_cons.1 hbefore).2, hx⟩

end

def strangeKeys (entries : List (Value × Value)) : List Value :=
  (entries.map Prod.fst).filter fun k => (Key.ofValue? k).isNone

def named (entries : List (Value × Value)) : List (Key × Value) :=
  entries.filterMap fun e => (Key.ofValue? e.1).map fun k => (k, e.2)

/-- What leaves the check of a layer as it is: the report of unknown keys of which one is no text,
or the first value that is refused, if a number in it has no text. -/
inductive LayerLeaks (entries : List (Value × Value)) : Fault → Prop
  | keys {v : Value} {vs : List Value} {f : Fault} (strange : strangeKeys entries = v :: vs)
      (odd : ∃ k ∈ v :: vs, ∀ t, k ≠ .text t) (report : unknown v vs = .passed f) :
      LayerLeaks entries f
  | value {before after : List (Key × Value)} {key : Key} {v : Value}
      (known : strangeKeys entries = []) (first : named entries = before ++ (key, v) :: after)
      (accepted : ∀ e ∈ before, ∃ c, check e.1 e.2 = .ok c) (vast : ∃ n ∈ v.integers, Vast n) :
      LayerLeaks entries .tooManyDigits

theorem changesOf_known {entries : List (Value × Value)} (h : strangeKeys entries = []) :
    changesOf entries = (named entries).mapM fun e => check e.1 e.2 := by
  rw [changesOf, ← strangeKeys, h]
  rfl

theorem changesOf_strange {entries : List (Value × Value)} {v : Value} {vs : List Value}
    (h : strangeKeys entries = v :: vs) : changesOf entries = .error (unknown v vs) := by
  rw [changesOf, ← strangeKeys, h]

theorem LayerLeaks.changesOf {entries : List (Value × Value)} {f : Fault}
    (h : LayerLeaks entries f) :
    Settings.changesOf entries = .error (.passed f) ∧ f.kind ≠ .settings := by
  cases h with
  | keys strange odd report =>
    obtain ⟨g, hg, hkind⟩ := unknown_odd odd
    rw [report] at hg
    cases hg
    refine ⟨by rw [changesOf_strange strange, report], ?_⟩
    rw [hkind]
    decide
  | value known first accepted vast =>
    refine ⟨?_, by decide⟩
    rw [changesOf_known known, mapM_error_iff]
    exact ⟨_, _, _, first, accepted, (check_settles _ _).1 vast⟩

/-- A layer is refused as settings, or leaks. -/
theorem changesOf_error {entries : List (Value × Value)} {e : Failure}
    (h : changesOf entries = .error e) :
    e.kind = .settings ∨ ∃ f, e = .passed f ∧ LayerLeaks entries f := by
  rcases hstrange : strangeKeys entries with _ | ⟨v, vs⟩
  · rw [changesOf_known hstrange, mapM_error_iff] at h
    obtain ⟨before, ⟨key, v⟩, after, hsplit, hbefore, hx⟩ := h
    by_cases hvast : ∃ n ∈ v.integers, Vast n
    · have he := (check_settles key v).1 hvast
      rw [hx] at he
      cases he
      exact Or.inr ⟨_, rfl, .value hstrange hsplit hbefore hvast⟩
    · exact Or.inl ((check_settles key v).2 hvast e hx)
  · rw [changesOf_strange hstrange] at h
    cases h
    by_cases hodd : ∃ k ∈ v :: vs, ∀ t, k ≠ .text t
    · obtain ⟨f, hf, -⟩ := unknown_odd hodd
      exact Or.inr ⟨f, hf, .keys hstrange hodd hf⟩
    · refine Or.inl (unknown_text fun k hk => Classical.byContradiction fun hk' => ?_)
      exact hodd ⟨k, hk, fun t ht => hk' ⟨t, ht⟩⟩

end HostTelemetry.Settings
