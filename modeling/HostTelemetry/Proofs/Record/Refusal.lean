import HostTelemetry.Proofs.Double.Overflow
import HostTelemetry.Proofs.Json.Limits
import HostTelemetry.Proofs.Record.RoundTrip

/-!
# What is refused, and what goes through

A sample or a line that is no record is refused as one, with three exceptions. A whole number
without a double passes through where it is the first field that is no metric; a text with a
numeral of too many digits or with too many brackets passes through where the reader meets them.
The exceptions are exact: everything else is a record or is refused.
-/

set_option autoImplicit false

namespace HostTelemetry

def Value.Overflows (v : Value) : Prop := ∃ n : Int, v = .int n ∧ 2 ^ 1024 ≤ n.natAbs + 2 ^ 970

namespace Record

/-- The first of some fields that is no metric overflows. -/
def Overflows : List Value → Prop
  | [] => False
  | v :: vs => v.Overflows ∨ (∃ x : Metric, v.float? = some x.1) ∧ Overflows vs

def Settled {α : Type} (x : Except Failure α) : Prop := ∀ f, x = .error f → f.kind = .record

def PassesIff {α : Type} (P : Prop) (f : Fault) (x : Except Failure α) : Prop :=
  P ∧ x = .error (.passed f) ∨ ¬P ∧ Settled x

theorem settled_ok {α : Type} (a : α) : Settled (Except.ok a : Except Failure α) := by
  simp [Settled]

theorem settled_error {α : Type} {f : Failure} (h : f.kind = .record) :
    Settled (Except.error f : Except Failure α) := by
  intro g hg
  obtain rfl := Except.error.inj hg
  exact h

theorem Settled.map {α β : Type} {x : Except Failure α} {g : α → β} (h : Settled x) :
    Settled (x.map g) := by
  cases x with
  | ok a => exact settled_ok (g a)
  | error f => exact settled_error (h f rfl)

theorem Settled.bind {α β : Type} {x : Except Failure α} {g : α → Except Failure β} (h : Settled x)
    (hg : ∀ a, Settled (g a)) : Settled (x >>= g) := by
  cases x with
  | ok a => exact hg a
  | error f => exact settled_error (h f rfl)

theorem not_overflows_of_float {v : Value} {x : Metric} (h : v.float? = some x.1) :
    ¬v.Overflows := by
  rintro ⟨n, rfl, hn⟩
  rw [Value.float?, (Double.ofInt?_eq_none_iff n).2 hn] at h
  cases h

theorem overflows_of_le {n : Nat} (h : 2 ^ 1024 ≤ n) : (Value.int (Int.ofNat n)).Overflows :=
  ⟨_, rfl, Nat.le_trans h (Nat.le_add_right n _)⟩

theorem metric_error {name : Text} {v : Value} {f : Failure} (h : metric name v = .error f) :
    v.Overflows ∧ f = .passed .tooLargeForDouble ∨ ¬v.Overflows ∧ f.kind = .record := by
  cases v with
  | int n =>
    rw [metric] at h
    cases hd : Double.ofInt? n with
    | none =>
      rw [hd] at h
      exact Or.inl ⟨⟨n, rfl, (Double.ofInt?_eq_none_iff n).1 hd⟩, (Except.error.inj h).symm⟩
    | some d =>
      rw [hd, Option.getD_some, finite, dif_pos (Double.isFinite_of_ofInt? hd)] at h
      cases h
  | double d =>
    rw [metric, finite] at h
    split at h
    · cases h
    · cases h
      exact Or.inr ⟨by simp [Value.Overflows], rfl⟩
  | _ =>
    cases h
    exact Or.inr ⟨by simp [Value.Overflows], rfl⟩

theorem metric_bind {α : Type} (name : Text) (v : Value) (vs : List Value)
    {g : Metric → Except Failure α}
    (hg : ∀ x, PassesIff (Overflows vs) .tooLargeForDouble (g x)) :
    PassesIff (Overflows (v :: vs)) .tooLargeForDouble (metric name v >>= g) := by
  cases hmetric : metric name v with
  | ok x =>
    have hfloat := (metric_eq_ok_iff name v x).1 hmetric
    have hrest : Overflows (v :: vs) ↔ Overflows vs :=
      ⟨fun h => (h.resolve_left (not_overflows_of_float hfloat)).2,
        fun h => Or.inr ⟨⟨x, hfloat⟩, h⟩⟩
    rw [PassesIff, hrest]
    exact hg x
  | error f =>
    have hno : ¬∃ x : Metric, v.float? = some x.1 := by
      rintro ⟨x, hx⟩
      rw [(metric_eq_ok_iff name v x).2 hx] at hmetric
      cases hmetric
    have hfirst : Overflows (v :: vs) ↔ v.Overflows :=
      ⟨fun h => h.resolve_right fun hlater => hno hlater.1, Or.inl⟩
    rw [PassesIff, hfirst]
    obtain ⟨hover, rfl⟩ | ⟨hfits, hkind⟩ := metric_error hmetric
    · exact Or.inl ⟨hover, rfl⟩
    · exact Or.inr ⟨hfits, settled_error hkind⟩

theorem passesIff_settled {α : Type} {f : Fault} {x : Except Failure α} (h : Settled x) :
    PassesIff (Overflows []) f x := Or.inr ⟨id, h⟩

/-- The fields of a sample that have to be metrics, in the order in which they are looked at. -/
def measuresOf (s : Sample) : List Value := [s.cpu, s.memory, s.disk, s.network]

theorem encode_passesIff (s : Sample) :
    PassesIff (Overflows (measuresOf s)) .tooLargeForDouble s.encode := by
  have hrecord : PassesIff (Overflows (measuresOf s)) .tooLargeForDouble (ofSample s) := by
    unfold ofSample measuresOf
    refine metric_bind _ _ _ fun cpu => metric_bind _ _ _ fun memory =>
      metric_bind _ _ _ fun disk => metric_bind _ _ _ fun network => passesIff_settled ?_
    split
    · split
      · exact settled_ok _
      · exact settled_error rfl
    · exact settled_error rfl
  obtain ⟨hover, hpassed⟩ | ⟨hfits, hsettled⟩ := hrecord
  · exact Or.inl ⟨hover, by rw [Sample.encode, hpassed]; rfl⟩
  · exact Or.inr ⟨hfits, hsettled.map⟩

theorem timeOf_settled {v : Json} (h : v.Shows) : Settled (timeOf v) := by
  unfold timeOf
  split
  · split
    · exact settled_error rfl
    · split
      · exact settled_ok _
      · exact settled_error rfl
  · obtain ⟨s, hs⟩ := h
    rw [hs]
    exact settled_error rfl

structure Complete (members : List (Text × Json)) : Prop where
  each : ∀ n ∈ fieldNames, (lookup? n members).isSome
  only : ∀ m ∈ members, m.1 ∈ fieldNames

def memberOf (members : List (Text × Json)) (name : Text) : Json :=
  (lookup? name members).getD .null

def measuresIn (members : List (Text × Json)) : List Value :=
  metricNames.map fun n => Value.ofJson (memberOf members n)

theorem lookup?_mem {key : Text} {members : List (Text × Json)} {v : Json}
    (h : lookup? key members = some v) : ∃ m ∈ members, m.2 = v := by
  induction members with
  | nil => cases h
  | cons m members ih =>
    obtain ⟨k, x⟩ := m
    rw [lookup?] at h
    split at h
    · exact ⟨(k, x), List.mem_cons_self .., Option.some.inj h⟩
    · obtain ⟨m, hm, hv⟩ := ih h
      exact ⟨m, List.mem_cons_of_mem _ hm, hv⟩

theorem memberOf_shows {members : List (Text × Json)} (h : ∀ m ∈ members, m.2.Shows) (name : Text) :
    (memberOf members name).Shows := by
  unfold memberOf
  cases hfound : lookup? name members with
  | none => exact ⟨_, rfl⟩
  | some v =>
    obtain ⟨m, hm, rfl⟩ := lookup?_mem hfound
    exact h m hm

theorem complete_iff (members : List (Text × Json)) :
    Complete members ↔ (fieldNames.filter fun n => (lookup? n members).isNone) = [] ∧
      ((members.map Prod.fst).filter fun n => !fieldNames.contains n) = [] := by
  rw [List.filter_eq_nil_iff, List.filter_eq_nil_iff]
  constructor
  · intro h
    constructor
    · intro n hn
      simpa [Option.isSome_iff_ne_none] using h.each n hn
    · intro n hn
      obtain ⟨m, hm, rfl⟩ := List.mem_map.1 hn
      simpa using h.only m hm
  · rintro ⟨hmissing, hunknown⟩
    constructor
    · intro n hn
      simpa [Option.isSome_iff_ne_none] using hmissing n hn
    · intro m hm
      simpa using hunknown m.1 (List.mem_map_of_mem hm)

theorem ofMembers_passesIff {members : List (Text × Json)} (h : ∀ m ∈ members, m.2.Shows) :
    PassesIff (Complete members ∧ Overflows (measuresIn members)) .tooLargeForDouble
      (ofMembers members) := by
  unfold ofMembers
  dsimp only
  split
  · rename_i hmissing
    refine Or.inr ⟨fun hboth => ?_, settled_error rfl⟩
    rw [((complete_iff members).1 hboth.1).1] at hmissing
    cases hmissing
  · split
    · rename_i hunknown
      refine Or.inr ⟨fun hboth => ?_, settled_error rfl⟩
      rw [((complete_iff members).1 hboth.1).2] at hunknown
      cases hunknown
    · rename_i hmissing hunknown
      have hcomplete : Complete members := by
        rw [complete_iff]
        simpa using And.intro hmissing hunknown
      rw [PassesIff, and_iff_right hcomplete]
      refine metric_bind _ _ _ fun cpu => metric_bind _ _ _ fun memory => metric_bind _ _ _
        fun disk => metric_bind _ _ _ fun network => passesIff_settled ?_
      exact (timeOf_settled (memberOf_shows h (lit "time"))).bind fun _ => settled_ok _

/-- What overwhelms the reading of a line: its size, or a field of its object that overflows. -/
inductive Overwhelms (room : Nat) (t : Text) : Fault → Prop
  | text {f : Fault} (stops : Json.read (room + 1) t = .error f)
    (excess : Json.Excess (room + 1) t f) : Overwhelms room t f
  | measure {members : List (Text × Json)} (object : Json.read (room + 1) t = .ok (.object members))
    (complete : Complete members) (overflows : Overflows (measuresIn members)) :
    Overwhelms room t .tooLargeForDouble

theorem overwhelms_object {room : Nat} {t : Text} {members : List (Text × Json)} {f : Fault}
    (object : Json.read (room + 1) t = .ok (.object members)) :
    Overwhelms room t f ↔
      (Complete members ∧ Overflows (measuresIn members)) ∧ f = .tooLargeForDouble := by
  constructor
  · intro h
    cases h with
    | text stops _ =>
      rw [object] at stops
      cases stops
    | measure object' complete overflows =>
      rw [object] at object'
      obtain rfl := Json.object.inj (Except.ok.inj object')
      exact ⟨⟨complete, overflows⟩, rfl⟩
  · rintro ⟨⟨complete, overflows⟩, rfl⟩
    exact .measure object complete overflows

theorem not_overwhelms_place {room : Nat} {t : Text} {g : JsonFault} {p : Place}
    (stops : Json.read (room + 1) t = .error (.json g p)) : ¬∃ f, Overwhelms room t f := by
  rintro ⟨f, h⟩
  cases h with
  | text stops' excess =>
    rw [stops] at stops'
    obtain rfl := Except.error.inj stops'
    cases excess
  | measure object =>
    rw [stops] at object
    cases object

theorem read_settled (room : Nat) (t : Text) :
    (∃ f, Overwhelms room t f ∧ read room t = .error (.passed f)) ∨
      (¬∃ f, Overwhelms room t f) ∧ Settled (read room t) := by
  obtain ⟨v, hv, hshows⟩ | ⟨g, p, hstops⟩ | ⟨f, hstops, hexcess⟩ := Json.read_cases (room + 1) t
  · cases v with
    | object members =>
      have hread : read room t = ofMembers members := by rw [read, hv]
      rw [hread]
      obtain ⟨hover, hpassed⟩ | ⟨hfits, hsettled⟩ :=
        ofMembers_passesIff (Json.shows_of_object hshows)
      · exact Or.inl ⟨_, (overwhelms_object hv).2 ⟨hover, rfl⟩, hpassed⟩
      · refine Or.inr ⟨?_, hsettled⟩
        rintro ⟨f, hf⟩
        exact hfits ((overwhelms_object hv).1 hf).1
    | _ =>
      refine Or.inr ⟨?_, ?_⟩
      · rintro ⟨f, h⟩
        cases h with
        | text stops _ =>
          rw [hv] at stops
          cases stops
        | measure object _ _ =>
          rw [hv] at object
          cases object
      · rw [read, hv]
        exact settled_error rfl
  · refine Or.inr ⟨not_overwhelms_place hstops, ?_⟩
    rw [read, hstops]
    exact settled_error rfl
  · refine Or.inl ⟨f, .text hstops hexcess, ?_⟩
    rw [read, hstops]
    cases hexcess <;> rfl

/-- Encoding any sample and reading any text gives a line or a record, or refuses with the failure
of records, with exactly these exceptions: the first field that is no metric is a whole number
without a double, a text has a run of more than 4300 digits where the reader meets it, or more
brackets that open than there is room for. -/
theorem refuses_unless (room : Nat) (s : Sample) (t : Text) :
    (Overflows (measuresOf s) ∧ s.encode = .error (.passed .tooLargeForDouble) ∨
      ¬Overflows (measuresOf s) ∧ Settled s.encode) ∧
    ((∃ f, Overwhelms room t f ∧ read room t = .error (.passed f)) ∨
      (¬∃ f, Overwhelms room t f) ∧ Settled (read room t)) :=
  ⟨encode_passesIff s, read_settled room t⟩

def tooLarge : Sample :=
  { (zeros west).toSample with cpu := .int (Int.ofNat (2 ^ 1024)) }

/-- A whole number and a row of brackets go through as they are. -/
theorem passes_tooLarge :
    ¬Settled tooLarge.encode ∧
      ∀ room < 4999, ¬Settled (read room (List.replicate 5000 (cp '['))) := by
  constructor
  · obtain ⟨-, hpassed⟩ | ⟨hfits, -⟩ := encode_passesIff tooLarge
    · intro hsettled
      exact absurd (hsettled _ hpassed) (by decide)
    · exact absurd (Or.inl (overflows_of_le (Nat.le_refl _))) hfits
  · intro room hroom hsettled
    have hbrackets : List.replicate 5000 (cp '[') =
        List.replicate (room + 1 + 1) (cp '[') ++ List.replicate (4998 - room) (cp '[') := by
      rw [List.replicate_append_replicate]
      congr 1
      omega
    have hread : read room (List.replicate 5000 (cp '[')) = .error (.passed .tooDeep) := by
      rw [read, hbrackets, Json.read_brackets]
    exact absurd (hsettled _ hread) (by decide)

end Record

end HostTelemetry
