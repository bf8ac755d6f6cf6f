import HostTelemetry.Proofs.CommandLine.Layers

/-!
# Sets of overrides

A set of overrides has values under names, each name once; a value that is not there overrides
nothing. Whether a set is accepted does not hang on the settings it is applied to, nor does its
order count. Two sets one after the other come to one, the later over the earlier.
-/

set_option autoImplicit false

namespace HostTelemetry.Settings

open CommandLine (present override_eq)

structure Overrides where
  pairs : List (Text × Value)
  distinct : (pairs.map Prod.fst).Nodup

namespace Overrides

def entries (o : Overrides) : List (Value × Value) := o.pairs.map fun e => (.text e.1, e.2)

def given (o : Overrides) : List (Text × Value) := o.pairs.filter fun e => (present e.2).isSome

/-- The values that are there in `upper`, over those of `lower`. -/
def onto (upper lower : Overrides) : Overrides where
  pairs := lower.pairs.filter (fun e => e.1 ∉ upper.given.map Prod.fst) ++ upper.given
  distinct := by
    rw [List.map_append, List.nodup_append']
    refine ⟨lower.distinct.sublist (List.filter_sublist.map _),
      upper.distinct.sublist (List.filter_sublist.map _), ?_⟩
    intro t hlower hupper
    obtain ⟨e, he, rfl⟩ := List.mem_map.1 hlower
    simpa [hupper] using (List.mem_filter.1 he).2

end Overrides

theorem present_isSome {v : Value} : (present v).isSome = true ↔ v ≠ .none := by
  cases v <;> simp [present]

theorem toText_injective {key key' : Key} (h : key.toText = key'.toText) : key = key' := by
  have hkey := ofValue?_eq_some_iff.2 (congrArg Value.text h)
  rw [ofValue?_eq_some_iff.2 rfl] at hkey
  exact Option.some.inj hkey

theorem valueUnder_eq_some_iff {es : List (Key × Value)} {key : Key} {v : Value}
    (distinct : (es.map Prod.fst).Nodup) : valueUnder key es = some v ↔ (key, v) ∈ es := by
  induction es generalizing v with
  | nil => simp [valueUnder]
  | cons e es ih =>
    obtain ⟨k, w⟩ := e
    rw [List.map_cons, List.nodup_cons] at distinct
    rw [valueUnder, Option.or_eq_some_iff, ih distinct.2, List.mem_cons]
    by_cases hk : k = key
    · subst hk
      have hnone : valueUnder k es = none := by
        refine Option.eq_none_iff_forall_ne_some.2 fun u hu => ?_
        exact distinct.1 (List.mem_map.2 ⟨(k, u), (ih distinct.2).1 hu, rfl⟩)
      simp [hnone, or_comm, eq_comm]
    · simp [hk, Ne.symm hk]

theorem named_distinct {entries : List (Value × Value)} (h : (entries.map Prod.fst).Nodup) :
    ((named entries).map Prod.fst).Nodup := by
  rw [List.Nodup, List.pairwise_map] at h ⊢
  refine List.pairwise_filterMap.2 (h.imp ?_)
  intro e e' hne b hb b' hb' hkey
  obtain ⟨k, hk, rfl⟩ := Option.map_eq_some_iff.1 hb
  obtain ⟨k', hk', rfl⟩ := Option.map_eq_some_iff.1 hb'
  obtain rfl : k = k' := hkey
  rw [ofValue?_eq_some_iff] at hk hk'
  exact hne (hk.trans hk'.symm)

namespace Overrides

def keyed (o : Overrides) : List (Key × Value) :=
  named (o.entries.filter fun e => (present e.2).isSome)

def value (o : Overrides) (key : Key) : Option Value := valueUnder key o.keyed

theorem mem_given {o : Overrides} {t : Text} {v : Value} :
    (t, v) ∈ o.given ↔ (t, v) ∈ o.pairs ∧ v ≠ .none := by
  rw [given, List.mem_filter, present_isSome]

theorem mem_entries {o : Overrides} {e : Value × Value} :
    e ∈ o.entries.filter (fun e => (present e.2).isSome) ↔
      ∃ t v, (t, v) ∈ o.given ∧ e = (.text t, v) := by
  simp only [List.mem_filter, entries, List.mem_map, mem_given, present_isSome]
  constructor
  · rintro ⟨⟨⟨t, v⟩, he, rfl⟩, hv⟩
    exact ⟨t, v, ⟨he, hv⟩, rfl⟩
  · rintro ⟨t, v, ⟨he, hv⟩, rfl⟩
    exact ⟨⟨(t, v), he, rfl⟩, hv⟩

theorem value_eq_some_iff {o : Overrides} {key : Key} {v : Value} :
    o.value key = some v ↔ (key.toText, v) ∈ o.given := by
  have hkeys : (o.entries.map Prod.fst).Nodup := by
    have htexts := o.distinct.map (f := Value.text) fun _ _ => Value.text.inj
    rw [List.map_map] at htexts
    rw [entries, List.map_map]
    exact htexts
  have hgiven : ((o.entries.filter fun e => (present e.2).isSome).map Prod.fst).Nodup :=
    hkeys.sublist (List.filter_sublist.map _)
  rw [value, keyed, valueUnder_eq_some_iff (named_distinct hgiven), mem_named_iff, mem_entries]
  constructor
  · rintro ⟨t, w, hmem, heq⟩
    cases heq
    exact hmem
  · intro hmem
    exact ⟨_, _, hmem, rfl⟩

/-- Every value that is there means something under the name it has. -/
def Acceptable (o : Overrides) : Prop :=
  ∀ t v, (t, v) ∈ o.given → ∃ key c, t = Key.toText key ∧ Means key v c

theorem override_eq_ok_iff {o : Overrides} {s s' : Settings} :
    s.override o.entries = .ok s' ↔ o.Acceptable ∧ ∀ key, Sets s s' key (o.value key) := by
  have hacceptable : Accepted (o.entries.filter fun e => (present e.2).isSome) ↔ o.Acceptable := by
    constructor
    · intro h t v hmem
      obtain ⟨key, c, hkey, hmeans⟩ := h _ (mem_entries.2 ⟨t, v, hmem, rfl⟩)
      exact ⟨key, c, Value.text.inj hkey, hmeans⟩
    · intro h e he
      obtain ⟨t, v, hmem, rfl⟩ := mem_entries.1 he
      obtain ⟨key, c, rfl, hmeans⟩ := h t v hmem
      exact ⟨key, c, rfl, hmeans⟩
  rw [override_eq, map_eq_ok, ← hacceptable, accepted_iff]
  constructor
  · rintro ⟨cs, hcs, rfl⟩
    exact ⟨⟨cs, hcs⟩, fun key => changeAll_sets key (changesOf_eq_ok_iff.1 hcs).2 s⟩
  · rintro ⟨⟨cs, hcs⟩, hsets⟩
    refine ⟨cs, hcs, ext_part fun key => ?_⟩
    exact (changeAll_sets key (changesOf_eq_ok_iff.1 hcs).2 s).unique (hsets key)

/-- A set fails in one way, whatever the settings. -/
theorem override_error_iff {o : Overrides} {s : Settings} {e : Failure} :
    s.override o.entries = .error e ↔
      changesOf (o.entries.filter fun e => (present e.2).isSome) = .error e := by
  rw [override_eq]
  rcases changesOf _ with f | cs
  · simp [Except.map]
  · exact iff_of_false nofun nofun

theorem mem_given_perm {o o' : Overrides} (h : o.pairs.Perm o'.pairs) {t : Text} {v : Value} :
    (t, v) ∈ o.given ↔ (t, v) ∈ o'.given := by
  rw [mem_given, mem_given, h.mem_iff]

theorem override_perm {o o' : Overrides} (h : o.pairs.Perm o'.pairs) {s s' : Settings} :
    s.override o.entries = .ok s' ↔ s.override o'.entries = .ok s' := by
  have hvalue : o.value = o'.value := by
    funext key
    refine Option.ext fun v => ?_
    rw [value_eq_some_iff, value_eq_some_iff, mem_given_perm h]
  simp only [override_eq_ok_iff, Acceptable, mem_given_perm h, hvalue]

variable {lower upper : Overrides}

theorem mem_given_onto {t : Text} {v : Value} :
    (t, v) ∈ (upper.onto lower).given ↔
      (t, v) ∈ upper.given ∨ (t, v) ∈ lower.given ∧ ∀ w, (t, w) ∉ upper.given := by
  rw [mem_given, onto, List.mem_append, List.mem_filter, mem_given (o := lower)]
  have hunder : decide (t ∉ upper.given.map Prod.fst) = true ↔ ∀ w, (t, w) ∉ upper.given := by
    simp
  rw [hunder]
  constructor
  · rintro ⟨⟨hlower, hfree⟩ | hupper, hv⟩
    · exact Or.inr ⟨⟨hlower, hv⟩, hfree⟩
    · exact Or.inl hupper
  · rintro (hupper | ⟨⟨hlower, hv⟩, hfree⟩)
    · exact ⟨Or.inr hupper, (mem_given.1 hupper).2⟩
    · exact ⟨Or.inl ⟨hlower, hfree⟩, hv⟩

theorem value_onto (key : Key) :
    (upper.onto lower).value key = (upper.value key).or (lower.value key) := by
  refine Option.ext fun v => ?_
  rw [value_eq_some_iff, mem_given_onto, Option.or_eq_some_iff, value_eq_some_iff,
    value_eq_some_iff, Option.eq_none_iff_forall_ne_some]
  simp only [Ne, value_eq_some_iff]
  exact or_congr_right and_comm

theorem Acceptable.onto (hupper : upper.Acceptable) (hlower : lower.Acceptable) :
    (upper.onto lower).Acceptable := by
  intro t v h
  obtain h | ⟨h, -⟩ := mem_given_onto.1 h
  · exact hupper t v h
  · exact hlower t v h

theorem override_onto {s s₁ s₂ : Settings} (hlower : s.override lower.entries = .ok s₁)
    (hupper : s₁.override upper.entries = .ok s₂) :
    s.override (upper.onto lower).entries = .ok s₂ := by
  rw [override_eq_ok_iff] at hlower hupper ⊢
  refine ⟨hupper.1.onto hlower.1, fun key => ?_⟩
  rw [value_onto]
  exact (hlower.2 key).over (hupper.2 key)

theorem part_eq {o : Overrides} {s s' : Settings} (h : s.override o.entries = .ok s') {key : Key}
    (free : ∀ v, (key.toText, v) ∈ o.pairs → v = .none) : s'.part key = s.part key := by
  have hkey := (override_eq_ok_iff.1 h).2 key
  have hnone : o.value key = none := by
    refine Option.eq_none_iff_forall_ne_some.2 fun v hv => ?_
    obtain ⟨hmem, hpresent⟩ := mem_given.1 (value_eq_some_iff.1 hv)
    exact hpresent (free v hmem)
  rw [hnone] at hkey
  exact hkey

/-- Two sets one after the other come to the later one over the earlier one, as a single set; what
neither has a value for stays. In every order a set does the same. What it is refused for, and so
whether it is accepted, is the same for all settings. -/
theorem override_composes :
    (∀ (lower upper : Overrides) (s s₁ s₂ : Settings), s.override lower.entries = .ok s₁ →
      s₁.override upper.entries = .ok s₂ →
      s.override (upper.onto lower).entries = .ok s₂ ∧
      ∀ key : Key, (∀ o ∈ [lower, upper], ∀ v, (key.toText, v) ∈ o.pairs → v = .none) →
        s₂.part key = s.part key) ∧
    (∀ o o' : Overrides, o.pairs.Perm o'.pairs → ∀ s s' : Settings,
      s.override o.entries = .ok s' ↔ s.override o'.entries = .ok s') ∧
    ∀ (o : Overrides) (s t : Settings) (e : Failure),
      s.override o.entries = .error e ↔ t.override o.entries = .error e := by
  refine ⟨fun lower upper s s₁ s₂ hlower hupper => ⟨override_onto hlower hupper, fun key hfree => ?_⟩,
    fun o o' h s s' => override_perm h, fun o s t e => ?_⟩
  · rw [part_eq hupper (hfree upper (by simp)), part_eq hlower (hfree lower (by simp))]
  · rw [override_error_iff, override_error_iff]

def quiet : Overrides :=
  ⟨[(lit "log_level", .text (lit "error")), (lit "level", .none),
    (lit "output_path", .text (lit "a"))], by decide⟩

def moved : Overrides :=
  ⟨[(lit "output_path", .path ⟨1, [lit "b"]⟩), (lit "log_level", .none),
    (lit "clamp", .bool true)], by decide⟩

theorem override_composes_moved :
    Settings.default.override quiet.entries = .ok ⟨⟨0, [lit "a"]⟩, false, false, none, .error⟩ ∧
    (⟨⟨0, [lit "a"]⟩, false, false, none, .error⟩ : Settings).override moved.entries =
      .ok ⟨⟨1, [lit "b"]⟩, false, true, none, .error⟩ ∧
    Settings.default.override (moved.onto quiet).entries =
      .ok ⟨⟨1, [lit "b"]⟩, false, true, none, .error⟩ := by
  have hquiet : Settings.default.override quiet.entries =
      .ok ⟨⟨0, [lit "a"]⟩, false, false, none, .error⟩ := by decide +kernel
  have hmoved : (⟨⟨0, [lit "a"]⟩, false, false, none, .error⟩ : Settings).override moved.entries =
      .ok ⟨⟨1, [lit "b"]⟩, false, true, none, .error⟩ := by decide +kernel
  exact ⟨hquiet, hmoved, (override_composes.1 _ _ _ _ _ hquiet hmoved).1⟩

end Overrides

end HostTelemetry.Settings
