import HostTelemetry.Proofs.Record.RoundTrip

/-!
# The canonical line of a record

A line may spell a record in many ways: its members in any order, dates by week, fractions that
are cut off, offsets with too many minutes. Whatever is read is a record that a sample can hold
and that comes back unchanged, since no offset is read that its own text would lose. So every line
that is read has one canonical line, and two of them share it exactly if they are one record.
-/

set_option autoImplicit false

namespace HostTelemetry

namespace Offset

theorem utc_kept : utc.kept = utc := rfl

theorem make?_kept {n : Int} {o : Offset} (hn : 1000000 ≤ n.natAbs)
    (h : (make? n).toOption = some o) : o.kept = o := by
  rw [make?] at h
  split at h
  · obtain rfl := Option.some.inj h
    exact (kept_eq_iff _).2 (Or.inr hn)
  · cases h

end Offset

namespace Stamp

theorem offsetOf?_kept {negative : Bool} {f : Fields} {o : Offset}
    (h : offsetOf? negative f = some o) : o.kept = o := by
  unfold offsetOf? at h
  dsimp only at h
  split at h
  · cases h
  · split at h
    · obtain rfl := Option.some.inj h
      exact Offset.utc_kept
    · refine Offset.make?_kept ?_ h
      split <;> omega

theorem readZone?_kept {left : Bool} {t : Text} {o : Offset}
    (h : readZone? left t = some (.fixed o)) : o.kept = o := by
  cases t with
  | nil =>
    simp only [readZone?] at h
    split at h <;> cases h
  | cons c rest =>
    simp only [readZone?, bind] at h
    split at h
    · split at h
      · cases h
        exact Offset.utc_kept
      · cases h
    · simp only [Option.bind_eq_some_iff] at h
      obtain ⟨f, -, p, hp, h⟩ := h
      cases h
      exact offsetOf?_kept hp

theorem readTime?_kept {t : Text} {time : TimeOfDay} {o : Offset}
    (h : readTime? t = some (time, .fixed o)) : o.kept = o := by
  simp only [readTime?, bind, Option.bind_eq_some_iff] at h
  obtain ⟨f, -, zone, hzone, u, -, h⟩ := h
  cases h
  exact readZone?_kept hzone

theorem readBytes?_kept {t : Text} {s : Stamp} {o : Offset} (h : readBytes? t = some s)
    (ho : s.offset? = some o) : o.kept = o := by
  simp only [readBytes?, bind, Option.bind_eq_some_iff] at h
  obtain ⟨n, -, date, -, h⟩ := h
  split at h
  · cases h
    cases ho
  · simp only [Option.bind_eq_some_iff] at h
    obtain ⟨⟨time, zone⟩, htime, h⟩ := h
    cases h
    cases zone with
    | fixed p =>
      cases ho
      exact readTime?_kept htime
    | _ => cases ho

theorem read?_kept {t : Text} {s : Stamp} {o : Offset} (h : read? t = some s)
    (ho : s.offset? = some o) : o.kept = o := by
  unfold read? at h
  split at h
  · cases h
  · split at h
    · cases h
    · exact readBytes?_kept h ho

end Stamp

namespace Record

theorem timeOf_kept {v : Json} {d : Date} {t : TimeOfDay} {o : Offset}
    (h : timeOf v = .ok (d, t, o)) : o.kept = o := by
  cases v with
  | text u =>
    simp only [timeOf] at h
    split at h
    · cases h
    · rename_i s hs
      split at h
      · rename_i p hp
        cases h
        exact Stamp.read?_kept hs hp
      · cases h
  | _ =>
    simp only [timeOf] at h
    split at h <;> cases h

theorem ofMembers_kept {members : List (Text × Json)} {r : Record}
    (h : ofMembers members = .ok r) : r.kept = r := by
  unfold ofMembers at h
  dsimp only at h
  split at h
  · cases h
  · split at h
    · cases h
    · obtain ⟨cpu, -, h⟩ := bind_eq_ok h
      obtain ⟨memory, -, h⟩ := bind_eq_ok h
      obtain ⟨disk, -, h⟩ := bind_eq_ok h
      obtain ⟨network, -, h⟩ := bind_eq_ok h
      obtain ⟨⟨date, time, offset⟩, htime, h⟩ := bind_eq_ok h
      cases h
      rw [kept, timeOf_kept htime]

/-- A record that was read loses nothing in its own line. -/
theorem read_kept {room : Nat} {t : Text} {r : Record} (h : read room t = .ok r) : r.kept = r := by
  unfold read at h
  split at h
  · cases h
  · cases h
  · exact ofMembers_kept h
  · cases h

theorem read_line_of_read {room : Nat} {t : Text} {r : Record} (h : read room t = .ok r) :
    read room r.line = .ok r := by
  rw [read_line, read_kept h]

theorem toSample_encode (r : Record) : r.toSample.encode = .ok r.line :=
  (encode_eq_ok_iff _ _).2 ⟨r, toSample_holds r, rfl⟩

/-- What is read can be encoded, and the line that comes of it is canonical: it is read as the same
record, is its own canonical line, and is shared by exactly the lines of this record. -/
theorem read_canonical {room : Nat} {t : Text} {r : Record} (h : read room t = .ok r) :
    ∃ line, r.toSample.encode = .ok line ∧ read room line = .ok r ∧
      (∀ r', read room line = .ok r' → r'.toSample.encode = .ok line) ∧
      ∀ u r', read room u = .ok r' → (r'.toSample.encode = .ok line ↔ r' = r) := by
  have hline := read_line_of_read h
  refine ⟨r.line, toSample_encode r, hline, ?_, ?_⟩
  · intro r' hr'
    rw [hline] at hr'
    cases hr'
    exact toSample_encode r
  · intro u r' hu
    rw [toSample_encode, Except.ok.injEq]
    constructor
    · intro hsame
      have hback := read_line_of_read hu
      rw [hsame, hline] at hback
      exact (Except.ok.inj hback).symm
    · intro hsame
      rw [hsame]

/-- Other order, blanks, a week date, a long fraction after a comma, and 99 minutes of offset. -/
def unusual : Text :=
  lit " \x7b\"time\" : \"2024-W18-3 12:00:00,1234567-00:99:00.5\", \"network\": 1E3,\n" ++
    lit "\"disk\":5, \"cpu\":-0.0,\"memory\" : 0.30000000000000000001 \x7d"

theorem read_canonical_unusual :
    ∃ r, read 0 unusual = .ok r ∧ r.time.micro = 123456 ∧ r.offset.micros = -5940500000 ∧
      ∃ line, r.toSample.encode = .ok line ∧ read 0 line = .ok r := by
  have hfields : (read 0 unusual).toOption.map (fun r => (r.time.micro, r.offset.micros)) =
      some (123456, -5940500000) := by decide +kernel
  cases hread : read 0 unusual with
  | error f =>
    rw [hread] at hfields
    cases hfields
  | ok r =>
    rw [hread] at hfields
    obtain ⟨hmicro, hoffset⟩ := Prod.mk.inj (Option.some.inj hfields)
    obtain ⟨line, hencode, hback, -⟩ := read_canonical hread
    exact ⟨r, rfl, hmicro, hoffset, line, hencode, hback⟩

end Record

end HostTelemetry
