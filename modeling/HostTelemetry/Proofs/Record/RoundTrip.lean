import HostTelemetry.Proofs.Json.Object
import HostTelemetry.Proofs.Outcome
import HostTelemetry.Proofs.Stamp.RoundTrip
import HostTelemetry.Record

/-!
# Records and their lines

The samples that have a line are those that hold a record: numbers that are finite as doubles and
an aware stamp. The line is read back with the same metrics, bit for bit, and the same date and
time of day, and with the same offset exactly if that is zero or at least a second.
-/

set_option autoImplicit false

namespace HostTelemetry

namespace Value

def float? : Value → Option Double
  | .int n => Double.ofInt? n
  | .double d => some d
  | _ => Option.none

end Value

structure Sample.Holds (s : Sample) (r : Record) : Prop where
  cpu : s.cpu.float? = some r.cpu.1
  memory : s.memory.float? = some r.memory.1
  disk : s.disk.float? = some r.disk.1
  network : s.network.float? = some r.network.1
  time : s.time = .stamp r.stamp

namespace Record

theorem finite_eq_ok_iff (f : Failure) (d : Double) (x : Metric) :
    finite f d = .ok x ↔ d = x.1 := by
  obtain ⟨y, hy⟩ := x
  rw [finite]
  by_cases h : d.isFinite
  · rw [dif_pos h]
    simp
  · rw [dif_neg h]
    constructor
    · intro hx
      cases hx
    · intro hx
      rw [hx] at h
      exact absurd hy h

theorem metric_eq_ok_iff (name : Text) (v : Value) (x : Metric) :
    metric name v = .ok x ↔ v.float? = some x.1 := by
  cases v with
  | int n =>
    rw [metric, finite_eq_ok_iff, Value.float?]
    have hfinite : Double.nan ≠ x.1 := by
      intro h
      have hx := x.2
      rw [← h] at hx
      exact absurd hx (by decide)
    generalize Double.ofInt? n = d
    cases d with
    | none => simp [hfinite]
    | some d => simp
  | double d =>
    rw [metric, finite_eq_ok_iff, Value.float?, Option.some.injEq]
  | _ => simp [metric, Value.float?]

theorem ofSample_eq_ok_iff (s : Sample) (r : Record) : ofSample s = .ok r ↔ s.Holds r := by
  constructor
  · intro h
    obtain ⟨cpu, hcpu, h⟩ := bind_eq_ok h
    obtain ⟨memory, hmemory, h⟩ := bind_eq_ok h
    obtain ⟨disk, hdisk, h⟩ := bind_eq_ok h
    obtain ⟨network, hnetwork, h⟩ := bind_eq_ok h
    rw [metric_eq_ok_iff] at hcpu hmemory hdisk hnetwork
    cases htime : s.time with
    | stamp t =>
      obtain ⟨date, time, zone⟩ := t
      rw [htime] at h
      cases zone with
      | fixed o =>
        obtain rfl := Except.ok.inj h
        exact ⟨hcpu, hmemory, hdisk, hnetwork, htime⟩
      | _ => cases h
    | _ =>
      rw [htime] at h
      cases h
  · intro h
    obtain ⟨hcpu, hmemory, hdisk, hnetwork, htime⟩ := h
    rw [← metric_eq_ok_iff (lit "cpu")] at hcpu
    rw [← metric_eq_ok_iff (lit "memory")] at hmemory
    rw [← metric_eq_ok_iff (lit "disk")] at hdisk
    rw [← metric_eq_ok_iff (lit "network")] at hnetwork
    rw [ofSample, hcpu, hmemory, hdisk, hnetwork, htime]
    rfl

theorem encode_eq_ok_iff (s : Sample) (line : Text) :
    s.encode = .ok line ↔ ∃ r, s.Holds r ∧ r.line = line := by
  rw [Sample.encode]
  constructor
  · intro h
    rcases hr : ofSample s with f | r
    · simp [hr, Except.map] at h
    · rw [hr] at h
      exact ⟨r, (ofSample_eq_ok_iff s r).1 hr, Except.ok.inj h⟩
  · rintro ⟨r, hr, rfl⟩
    rw [(ofSample_eq_ok_iff s r).2 hr]
    rfl

/-- What comes back of a record from its line. -/
def kept (r : Record) : Record := { r with offset := r.offset.kept }

theorem render_clean (r : Record) : Json.Clean (r.stamp.render (cp 'T') .always) :=
  Json.clean_of_visible ((Stamp.render_within .always r.stamp).mono (by decide) (by decide))

def members (r : Record) : List (Text × Json) :=
  [(lit "cpu", .double r.cpu.1), (lit "memory", .double r.memory.1),
    (lit "disk", .double r.disk.1), (lit "network", .double r.network.1),
    (lit "time", .text (r.stamp.render (cp 'T') .always))]

theorem fieldNames_clean : ∀ n ∈ fieldNames, Json.Clean n := by
  have hall : (fieldNames.all fun n => n.all fun c => decide (32 ≤ c ∧ c ≤ 126)) = true := by decide
  intro n hn
  apply Json.clean_of_visible
  intro c hc
  simpa using List.all_eq_true.1 (List.all_eq_true.1 hall n hn) c hc

theorem read_toJson (room : Nat) (r : Record) :
    Json.read (room + 1) r.line = .ok (.object r.members) := by
  have hnodup : (r.members.map Prod.fst).Nodup := by
    show fieldNames.Nodup
    decide
  have hkeys : ∀ m ∈ r.members, Json.Clean m.1 := by
    intro m hm
    have hname : m.1 ∈ fieldNames := by
      fin_cases hm <;> simp [fieldNames, metricNames]
    exact fieldNames_clean m.1 hname
  have hvalues : ∀ m ∈ r.members, Json.Reads Json.dense (Json.readValue room) m.2 := by
    intro m hm
    simp only [members, List.mem_cons, List.not_mem_nil, or_false] at hm
    rcases hm with rfl | rfl | rfl | rfl | rfl
    · exact Json.number_reads _ room r.cpu.2
    · exact Json.number_reads _ room r.memory.2
    · exact Json.number_reads _ room r.disk.2
    · exact Json.number_reads _ room r.network.2
    · exact Json.text_reads _ room (render_clean r)
  exact Json.read_render Json.dense_visible
    (Json.object_reads Json.dense_marks hnodup hkeys hvalues)

theorem timeOf_stamp (r : Record) :
    timeOf (.text (r.stamp.render (cp 'T') .always)) = .ok (r.date, r.time, r.offset.kept) := by
  have hread : Stamp.read? (r.stamp.render (cp 'T') .always) =
      some ⟨r.date, r.time, .fixed r.offset.kept⟩ :=
    Stamp.read?_render .always r.date r.time r.offset
  rw [timeOf, hread]
  rfl

theorem ofMembers_members (r : Record) : ofMembers r.members = .ok r.kept := by
  have hmissing : (fieldNames.filter fun n => (lookup? n r.members).isNone) = [] := rfl
  have hunknown : ((r.members.map Prod.fst).filter fun n => !fieldNames.contains n) = [] := rfl
  have hmetric : ∀ name (x : Metric), metric name (Value.ofJson (.double x.1)) = .ok x :=
    fun name x => (metric_eq_ok_iff name _ x).2 rfl
  have hcpu : (lookup? (lit "cpu") r.members).getD .null = .double r.cpu.1 := rfl
  have hmemory : (lookup? (lit "memory") r.members).getD .null = .double r.memory.1 := rfl
  have hdisk : (lookup? (lit "disk") r.members).getD .null = .double r.disk.1 := rfl
  have hnetwork : (lookup? (lit "network") r.members).getD .null = .double r.network.1 := rfl
  have htime : (lookup? (lit "time") r.members).getD .null =
    .text (r.stamp.render (cp 'T') .always) := rfl
  unfold ofMembers
  rw [hmissing, hunknown]
  dsimp only
  rw [hcpu, hmemory, hdisk, hnetwork, htime, hmetric, hmetric, hmetric, hmetric, timeOf_stamp]
  rfl

theorem read_line (room : Nat) (r : Record) : read room r.line = .ok r.kept := by
  rw [read, read_toJson]
  exact ofMembers_members r

theorem holds_unique {s : Sample} {r r' : Record} (h : s.Holds r) (h' : s.Holds r') : r = r' := by
  have hr := (ofSample_eq_ok_iff s r).2 h
  rw [(ofSample_eq_ok_iff s r').2 h'] at hr
  exact (Except.ok.inj hr).symm

theorem kept_eq_iff (r : Record) :
    r.kept = r ↔ r.offset.micros = 0 ∨ 1000000 ≤ r.offset.micros.natAbs := by
  rw [← Offset.kept_eq_iff]
  constructor
  · intro h
    exact congrArg Record.offset h
  · intro h
    rw [kept, h]

theorem toSample_holds (r : Record) : r.toSample.Holds r := ⟨rfl, rfl, rfl, rfl, rfl⟩

/-- The line of a sample is read back as the record that the sample holds, up to an offset below a
second, and as this very record exactly if the offset is zero or at least a second. -/
theorem read_encode (room : Nat) {s : Sample} {line : Text} (h : s.encode = .ok line) :
    ∃ r, s.Holds r ∧ read room line = .ok { r with offset := r.offset.kept } ∧
      ((∃ r', s.Holds r' ∧ read room line = .ok r') ↔
        r.offset.micros = 0 ∨ 1000000 ≤ r.offset.micros.natAbs) := by
  obtain ⟨r, hr, rfl⟩ := (encode_eq_ok_iff s line).1 h
  have hread := read_line room r
  refine ⟨r, hr, hread, ?_⟩
  rw [← kept_eq_iff]
  constructor
  · rintro ⟨r', hr', hread'⟩
    rw [hread, holds_unique hr' hr] at hread'
    exact Except.ok.inj hread'
  · intro hkept
    rw [hkept] at hread
    exact ⟨r, hr, hread⟩

theorem zero_isFinite (negative : Bool) : (Double.zero negative).isFinite = true := rfl

def zeros (o : Offset) : Record :=
  ⟨⟨.zero true, zero_isFinite true⟩, ⟨.zero false, zero_isFinite false⟩,
    ⟨.zero false, zero_isFinite false⟩, ⟨.zero false, zero_isFinite false⟩,
    ⟨2024, 5, 1, by decide, by decide, by decide⟩, Stamp.midnight, o⟩

def west : Offset := ⟨-1500000, by decide⟩

def east : Offset := ⟨500000, by decide⟩

theorem read_encode_west : (zeros west).toSample.encode = .ok (zeros west).line ∧
    ∃ r, (zeros west).toSample.Holds r ∧ read 0 (zeros west).line = .ok r := by
  have hencode : (zeros west).toSample.encode = .ok (zeros west).line :=
    (encode_eq_ok_iff _ _).2 ⟨zeros west, toSample_holds _, rfl⟩
  obtain ⟨r, hr, -, hiff⟩ := read_encode 0 hencode
  rw [holds_unique hr (toSample_holds _)] at hiff
  exact ⟨hencode, hiff.2 (Or.inr (by decide))⟩

/-- The line of half a second east comes back with universal time. -/
theorem read_encode_east : (zeros east).toSample.encode = .ok (zeros east).line ∧
    ∀ room, ¬∃ r, (zeros east).toSample.Holds r ∧ read room (zeros east).line = .ok r := by
  constructor
  · exact (encode_eq_ok_iff _ _).2 ⟨zeros east, toSample_holds _, rfl⟩
  · rintro room ⟨r, hr, hread⟩
    obtain rfl := holds_unique hr (toSample_holds _)
    rw [read_line] at hread
    rcases (kept_eq_iff (zeros east)).1 (Except.ok.inj hread) with h | h
    · exact absurd h (by decide)
    · exact absurd h (by decide)

end Record

end HostTelemetry
