import HostTelemetry.Metric.Counter
import HostTelemetry.Text.Basic

/-!
# Keeping totals

Counters that keep a total for each output make a collector: adding whole numbers is exact, so what
was told for an output comes to the sum.
-/

set_option autoImplicit false

namespace HostTelemetry

namespace Counter

theorem add_pending (c : Counter) (n : Nat) (output : Text) {t : Tally}
    (h : c.pending.add output (.int n) = .ok t) :
    (c.add (.int n) output).2 = { c with pending := t } := by
  have hle : (0 : Int) ≤ n * Double.one :=
    Int.mul_nonneg (Int.natCast_nonneg n) (Int.natCast_nonneg Double.one)
  have hcount : (Number.int n).lt (.int 0) = false := by
    show decide ((n : Int) * Double.one < 0 * Double.one) = false
    rw [Int.zero_mul]
    exact decide_eq_false (Int.not_lt.2 hle)
  unfold add
  dsimp only [Value.number?]
  rw [hcount, h]
  rfl

theorem foldl_pending (output : Text) (amounts : List (Text × Nat)) (c : Counter) (m : Nat)
    (same : ∀ p ∈ amounts, p.1 = output) (pending : c.pending = [(output, .int m)]) :
    amounts.foldl (fun c p => (c.add (.int p.2) p.1).2) c =
      { c with pending := [(output, .int (amounts.foldl (fun n p => n + p.2) m : Nat))] } := by
  induction amounts generalizing c m with
  | nil =>
    rw [List.foldl_nil, List.foldl_nil, ← pending]
  | cons p amounts ih =>
    obtain ⟨o, n⟩ := p
    obtain ⟨rfl, same⟩ := List.forall_mem_cons.1 same
    have hadd : c.pending.add o (.int n) = .ok [(o, .int (m + n : Nat))] := by
      rw [pending]
      exact if_pos rfl
    rw [List.foldl_cons, add_pending c n o hadd, ih _ (m + n) same rfl, List.foldl_cons]

theorem ofTold_read (t : Told) {output : Text} (same : ∀ p ∈ t.amounts, p.1 = output) :
    (ofTold t).read.1.toOption.getD [] =
      if t.amounts.isEmpty then [] else [(output, .int t.total)] := by
  obtain ⟨i, amounts⟩ := t
  cases amounts with
  | nil => rfl
  | cons p amounts =>
    obtain ⟨o, n⟩ := p
    obtain ⟨rfl, same⟩ := List.forall_mem_cons.1 same
    -- The first amount makes the entry of the output, and the others are added to it.
    have hfirst : (make i).pending.add o (.int n) = .ok [(o, .int (0 + n : Nat))] := rfl
    have hmore := foldl_pending o amounts
      { make i with pending := [(o, .int (0 + n : Nat))] } (0 + n) same rfl
    rw [ofTold, List.foldl_cons, add_pending (make i) n o hfirst, hmore]
    show [(o, Number.int ((amounts.foldl (fun n p => n + p.2) (0 + n) : Nat) + 0))] = _
    rw [Int.add_zero]
    rfl

theorem ofTold_instrument (t : Told) : (ofTold t).instrument = t.instrument := by
  have hfold : ∀ (amounts : List (Text × Nat)) (c : Counter),
      (amounts.foldl (fun c p => (c.add (.int p.2) p.1).2) c).instrument = c.instrument := by
    intro amounts
    induction amounts with
    | nil => exact fun c => rfl
    | cons p amounts ih =>
      intro c
      rw [List.foldl_cons, ih]
      unfold add
      repeat' split
      all_goals rfl
  exact hfold t.amounts (make t.instrument)

theorem ofTold_totals (told : List Told) {output : Text}
    (same : ∀ t ∈ told, ∀ p ∈ t.amounts, p.1 = output) :
    (((told.map ofTold).map fun c => (c, c.read.1.toOption.getD [])).filter fun c => !c.2.isEmpty) =
      (told.filter fun t => !t.amounts.isEmpty).map fun t =>
        (ofTold t, [(output, .int t.total)]) := by
  induction told with
  | nil => rfl
  | cons t told ih =>
    obtain ⟨hsame, same⟩ := List.forall_mem_cons.1 same
    rw [List.map_cons, List.map_cons, List.filter_cons, List.filter_cons, ih same,
      ofTold_read t hsame]
    by_cases hempty : t.amounts.isEmpty = true
    · rw [hempty]
      rfl
    · rw [if_neg hempty]
      rw [Bool.not_eq_true] at hempty
      rw [hempty]
      rfl

theorem report_totals (resource : Attributes) (start time : Int) (told : List Told) {output : Text}
    (same : ∀ t ∈ told, ∀ p ∈ t.amounts, p.1 = output) (some : ∃ t ∈ told, t.amounts ≠ []) :
    report resource start time (told.map ofTold) = [⟨resource.values,
      (told.filter fun t => !t.amounts.isEmpty).map fun t => t.series output start time⟩] := by
  obtain ⟨t, ht, htold⟩ := some
  have hmem : t ∈ told.filter fun t => !t.amounts.isEmpty := by
    refine List.mem_filter.2 ⟨ht, ?_⟩
    simpa using htold
  unfold report
  dsimp only
  rw [ofTold_totals told same]
  rcases hkept : told.filter fun t => !t.amounts.isEmpty with _ | ⟨k, ks⟩
  · rw [hkept] at hmem
    cases hmem
  · rw [hkept]
    have hseries : ∀ k : Told, series start time (ofTold k)
        [(output, .int k.total)] = k.series output start time := by
      intro k
      rw [series, ofTold_instrument]
      rfl
    show [Report.mk resource.values ((((k :: ks).map fun t =>
      (ofTold t, [(output, Number.int t.total)])).map fun c =>
        series start time c.1 c.2))] = _
    rw [List.map_map]
    exact congrArg (fun s => [Report.mk resource.values s]) (List.map_congr_left fun t _ => hseries t)

end Counter

namespace Attributes

theorem named_key (kv : Text × Text) : (named kv).1 = kv.1 := by
  unfold named
  split
  · rename_i h
    rw [h]
  · rfl

theorem overriddenBy_proper {added a : Attributes} (hadded : added.Proper) (ha : a.Proper) :
    (overriddenBy added a).Proper := by
  have hkeys : (a.map named).map Prod.fst = a.map Prod.fst := by
    rw [List.map_map]
    exact List.map_congr_left fun kv _ => named_key kv
  constructor
  · rw [overriddenBy, List.map_append, hkeys, List.nodup_append]
    refine ⟨(List.filter_sublist.map Prod.fst).nodup hadded.nodup, ha.nodup, ?_⟩
    rintro k hk _ hk' rfl
    obtain ⟨kv, hkv, rfl⟩ := List.mem_map.1 hk
    have hfree := (List.mem_filter.1 hkv).2
    rw [List.contains_iff_mem.2 hk'] at hfree
    cases hfree
  · intro kv hkv
    rcases List.mem_append.1 hkv with hkv | hkv
    · exact hadded.plain kv (List.mem_filter.1 hkv).1
    · obtain ⟨kv', hkv', rfl⟩ := List.mem_map.1 hkv
      unfold named
      split
      · unfold Text.IsPlain CodePoint.IsHighSurrogate
        decide
      · exact ha.plain kv' hkv'

end Attributes

theorem Collector.totals_lawful {added : Attributes} (proper : added.Proper) :
    (totals added).Lawful where
  idle a opening closing told hnothing := by
    have hsame : ∀ t ∈ told, ∀ p ∈ t.amounts, p.1 = [] := by
      intro t ht p hp
      rw [hnothing t ht] at hp
      cases hp
    have hnone : told.filter (fun t => !t.amounts.isEmpty) = [] := by
      rw [List.filter_eq_nil_iff]
      intro t ht
      rw [hnothing t ht]
      decide
    show Counter.report _ _ _ _ = _
    unfold Counter.report
    dsimp only
    rw [Counter.ofTold_totals told hsame, hnone]
    rfl
  resource_proper _ ha := Attributes.overriddenBy_proper proper ha
  resource_keeps a kv hkv hvalue := by
    refine List.mem_append_right _ (List.mem_map.2 ⟨kv, hkv, if_neg ?_⟩)
    rintro rfl
    exact hvalue rfl
  collect_output a opening closing output told hsame hsome :=
    Counter.report_totals _ _ _ told hsame hsome

end HostTelemetry
