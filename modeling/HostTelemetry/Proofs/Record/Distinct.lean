import HostTelemetry.Proofs.Record.Canonical

/-!
# Distinct readings have distinct lines

Reading a line back loses an offset below a second, so it does not tell all lines apart. The text
of an offset does: its sign stands in front and its fields behind, whichever of them are left out.
Two samples share a line exactly if they are the same reading.
-/

set_option autoImplicit false

namespace HostTelemetry

structure Sample.SameReading (s s' : Sample) : Prop where
  cpu : s.cpu.float? = s'.cpu.float?
  memory : s.memory.float? = s'.memory.float?
  disk : s.disk.float? = s'.disk.float?
  network : s.network.float? = s'.network.float?
  time : ∃ t t', s.time = .stamp t ∧ s'.time = .stamp t' ∧
    t.date = t'.date ∧ t.time = t'.time ∧ t.offset? = t'.offset?

theorem Offset.toText_injective {o o' : Offset} (h : o.toText = o'.toText) : o = o' := by
  obtain ⟨t, ht⟩ := Stamp.offset_head o
  obtain ⟨t', ht'⟩ := Stamp.offset_head o'
  obtain ⟨f, hf, -, hmicro, hseconds⟩ := Stamp.readFields?_offset o _ ht
  obtain ⟨f', hf', -, hmicro', hseconds'⟩ := Stamp.readFields?_offset o' _ ht'
  rw [ht, ht', List.cons.injEq] at h
  obtain ⟨hsign, rfl⟩ := h
  obtain rfl : f = f' := Option.some.inj (hf.symm.trans hf')
  have hsize : o.micros.natAbs = o'.micros.natAbs := by omega
  have hside : o.micros < 0 ↔ o'.micros < 0 := by
    have hmarks : cp '-' ≠ cp '+' := by decide
    by_cases hneg : o.micros < 0 <;> by_cases hneg' : o'.micros < 0 <;>
      simp [hneg, hneg', hmarks, hmarks.symm] at hsign ⊢
  obtain ⟨m, hm⟩ := o
  obtain ⟨m', hm'⟩ := o'
  obtain rfl : m = m' := by
    dsimp only at hsize hside
    omega
  rfl

namespace Record

theorem line_injective {r r' : Record} (h : r.line = r'.line) : r = r' := by
  have hkept : r.kept = r'.kept := by
    have hread := read_line 0 r
    rw [h, read_line 0 r'] at hread
    exact (Except.ok.inj hread).symm
  have hmembers : r.members = r'.members := by
    have hread := read_toJson 0 r
    rw [h, read_toJson 0 r'] at hread
    exact (Json.object.inj (Except.ok.inj hread)).symm
  obtain ⟨cpu, memory, disk, network, date, time, offset⟩ := r
  obtain ⟨cpu', memory', disk', network', date', time', offset'⟩ := r'
  simp only [kept, mk.injEq] at hkept
  obtain ⟨rfl, rfl, rfl, rfl, rfl, rfl, -⟩ := hkept
  simp only [members, stamp, Stamp.render_fixed, List.cons.injEq, Prod.mk.injEq, Json.text.injEq,
    List.append_cancel_left_eq, true_and, and_true] at hmembers
  rw [Offset.toText_injective hmembers]

theorem holds_sameReading {s s' : Sample} {r r' : Record} (h : s.Holds r) (h' : s'.Holds r') :
    s.SameReading s' ↔ r = r' := by
  constructor
  · rintro ⟨hcpu, hmemory, hdisk, hnetwork, t, t', ht, ht', hdate, htime, hoffset⟩
    rw [h.cpu, h'.cpu] at hcpu
    rw [h.memory, h'.memory] at hmemory
    rw [h.disk, h'.disk] at hdisk
    rw [h.network, h'.network] at hnetwork
    obtain rfl : r.stamp = t := Value.stamp.inj (h.time.symm.trans ht)
    obtain rfl : r'.stamp = t' := Value.stamp.inj (h'.time.symm.trans ht')
    obtain ⟨cpu, memory, disk, network, date, time, offset⟩ := r
    obtain ⟨cpu', memory', disk', network', date', time', offset'⟩ := r'
    obtain rfl := Subtype.ext (Option.some.inj hcpu)
    obtain rfl := Subtype.ext (Option.some.inj hmemory)
    obtain rfl := Subtype.ext (Option.some.inj hdisk)
    obtain rfl := Subtype.ext (Option.some.inj hnetwork)
    obtain rfl : date = date' := hdate
    obtain rfl : time = time' := htime
    obtain rfl : offset = offset' := Option.some.inj hoffset
    rfl
  · rintro rfl
    exact ⟨h.cpu.trans h'.cpu.symm, h.memory.trans h'.memory.symm, h.disk.trans h'.disk.symm,
      h.network.trans h'.network.symm, r.stamp, r.stamp, h.time, h'.time, rfl, rfl, rfl⟩

/-- Two samples that have lines have the same line if and only if they are the same reading. -/
theorem encode_eq_iff {s s' : Sample} {line line' : Text} (h : s.encode = .ok line)
    (h' : s'.encode = .ok line') : line = line' ↔ s.SameReading s' := by
  obtain ⟨r, hr, rfl⟩ := (encode_eq_ok_iff s line).1 h
  obtain ⟨r', hr', rfl⟩ := (encode_eq_ok_iff s' line').1 h'
  rw [holds_sameReading hr hr']
  constructor
  · exact line_injective
  · exact congrArg Record.line

def leastWest : Offset := ⟨-1, by decide⟩

def wholeZeros (o : Offset) : Sample :=
  { (zeros o).toSample with memory := .int 0, disk := .int 0, network := .int 0 }

/-- A microsecond to the west is read back as universal time, as half a second to the east is, but
their lines differ; a zero that is a whole number makes no difference. -/
theorem encode_eq_iff_offsets :
    (zeros leastWest).toSample.encode = .ok (zeros leastWest).line ∧
      (wholeZeros east).encode = .ok (zeros east).line ∧
      (zeros leastWest).line ≠ (zeros east).line ∧
      (zeros east).toSample.SameReading (wholeZeros east) := by
  have hwest := toSample_encode (zeros leastWest)
  have heast := toSample_encode (zeros east)
  have hzero : Double.ofInt? 0 = some (.zero false) := by decide +kernel
  have hwhole : (wholeZeros east).encode = .ok (zeros east).line :=
    (encode_eq_ok_iff _ _).2 ⟨zeros east, ⟨rfl, hzero, hzero, hzero, rfl⟩, rfl⟩
  refine ⟨hwest, hwhole, ?_, (encode_eq_iff heast hwhole).1 rfl⟩
  intro hsame
  obtain ⟨t, t', ht, ht', -, -, hoffset⟩ := ((encode_eq_iff hwest heast).1 hsame).time
  cases ht
  cases ht'
  cases hoffset

end Record

end HostTelemetry
