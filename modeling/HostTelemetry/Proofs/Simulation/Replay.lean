import HostTelemetry.Proofs.Json.Visible
import HostTelemetry.Proofs.Record.RoundTrip
import HostTelemetry.Proofs.Simulation.Session

/-!
# The output file replays a run

A line holds no line end, so the lines of a run are found again by splitting what it wrote, and
each of them reads as the sample that was drawn and the time that the clock showed.
-/

set_option autoImplicit false

namespace HostTelemetry

open Text (Within)

theorem Record.line_visible (r : Record) : Within 32 126 r.line :=
  Json.render_visible Json.dense_visible r.toJson

theorem Record.line_ne_nil (r : Record) : r.line ≠ [] := List.cons_ne_nil _ _

namespace Sink

theorem recordOf_ascii {line : Text} (h : Within 32 126 line) : Text.Ascii (recordOf line) :=
  ((h.mono (by decide) (Nat.le_refl 126)).append (Text.within_of_all (by decide) :
    Within 10 126 [10])).ascii (by decide)

theorem bytesOf_length {line : Text} (h : Within 32 126 line) :
    (bytesOf line).length = line.length + 1 := by
  rw [bytesOf, Utf8.flatMap_encodeOne (recordOf_ascii h), List.length_map, recordOf,
    List.length_append, List.length_singleton]

theorem shown_ascii {lines : List Text} (h : ∀ line ∈ lines, Within 32 126 line) :
    Text.Ascii (shown lines) := by
  intro c hc
  obtain ⟨line, hline, hc⟩ := List.mem_flatMap.1 hc
  exact recordOf_ascii (h line hline) c hc

theorem written_eq (lines : List Text) : written lines = (shown lines).flatMap Utf8.encodeOne := by
  induction lines with
  | nil => rfl
  | cons line lines ih =>
    rw [written, shown, List.flatMap_cons, List.flatMap_cons, List.flatMap_append]
    exact congrArg (bytesOf line ++ ·) ih

theorem decode_written {lines : List Text} (h : ∀ line ∈ lines, Within 32 126 line) :
    Utf8.decode (written lines) = .ok (shown lines) := by
  have hascii := shown_ascii h
  rw [written_eq, Utf8.flatMap_encodeOne hascii, Utf8.decode_ascii hascii]

theorem splitOn_recordOf {line : Text} (h : Within 32 126 line) (rest : Text) :
    Text.splitOn 10 (recordOf line ++ rest) = line :: Text.splitOn 10 rest := by
  induction line with
  | nil => rw [recordOf, List.nil_append, List.singleton_append, Text.splitOn, if_pos rfl]
  | cons c line ih =>
    have hc : c ≠ 10 := by
      intro heq
      have hlow := (h c (List.mem_cons_self ..)).1
      rw [heq] at hlow
      exact absurd hlow (by decide)
    have hline : Within 32 126 line := fun d hd => h d (List.mem_cons_of_mem c hd)
    have htext : recordOf (c :: line) ++ rest = c :: (recordOf line ++ rest) := rfl
    rw [htext, Text.splitOn, if_neg hc, ih hline]

theorem splitOn_shown {lines : List Text} (h : ∀ line ∈ lines, Within 32 126 line) :
    Text.splitOn 10 (shown lines) = lines ++ [[]] := by
  induction lines with
  | nil => rfl
  | cons line lines ih =>
    have hlines := ih fun l hl => h l (List.mem_cons_of_mem line hl)
    rw [shown, List.flatMap_cons, splitOn_recordOf (h line (List.mem_cons_self ..)), ← shown,
      hlines]
    rfl

end Sink

namespace Clock

variable {τ : Type} [Clock τ]

def after : (readings : Nat) → τ → τ
  | 0, c => c
  | n + 1, c => after n (now c).2

def reading (c : τ) (k : Nat) : Except Failure Value := (now (after k c)).1

theorem after_succ (c : τ) (n : Nat) : after (n + 1) c = (now (after n c)).2 := by
  induction n generalizing c with
  | zero => rfl
  | succ n ih => exact ih _

end Clock

namespace Generator

variable {σ τ : Type} [Source σ] [Clock τ]

theorem produce_clock {g : Generator σ τ} {s : Sample} (h : (Producer.produce g).1 = .ok s) :
    Clock.now g.clock = (.ok s.time, (Producer.produce g).2.clock) := by
  have hmade : (Producer.produce g).1 = (generate g).1 := rfl
  have hnext : (Producer.produce g).2 = (generate g).2 := rfl
  rw [hmade] at h
  rw [hnext]
  unfold generate at h ⊢
  rcases hdraw : drawAll g.clamp fields g.source with ⟨f | xs, source⟩
  · simp [hdraw] at h
  · rcases htime : Clock.now g.clock with ⟨f | time, clock⟩
    · simp [hdraw, htime, Except.map] at h
    · simp only [hdraw, htime, Except.map, Except.ok.injEq] at h ⊢
      rw [← h]
      rfl

theorem after_clock {g : Generator σ τ} (n : Nat)
    (h : ∀ k, k < n → ∃ s, (Producer.produce (Producer.after k g)).1 = .ok s) :
    (Producer.after n g).clock = Clock.after n g.clock := by
  induction n with
  | zero => rfl
  | succ n ih =>
    obtain ⟨s, hs⟩ := h n (Nat.lt_succ_self n)
    have hclock := produce_clock hs
    rw [ih fun k hk => h k (Nat.lt_succ_of_lt hk)] at hclock
    rw [Producer.after_succ, Clock.after_succ, hclock]

/-- A line reads as the sample that was drawn at its place, with the time that the clock showed. -/
def Replays (g : Generator σ τ) (k : Nat) (line : Text) : Prop :=
  ∃ (s : Sample) (r : Record), (Producer.produce (Producer.after k g)).1 = .ok s ∧
    Clock.reading g.clock k = .ok s.time ∧ s.encode = .ok line ∧ s.Holds r ∧
    ∀ room, Record.read room line = .ok r

/-- The clock shows no offset with a fraction of a second. -/
def Punctual (g : Generator σ τ) : Prop :=
  ∀ k t o, Clock.reading g.clock k = .ok (.stamp t) → t.offset? = some o →
    (1000000 : Int) ∣ o.micros

theorem lineAt_ok {g : Generator σ τ} {k : Nat} {line : Text}
    (h : Producer.lineAt g k = .ok line) :
    ∃ s, (Producer.produce (Producer.after k g)).1 = .ok s ∧ s.encode = .ok line := by
  rw [Producer.lineAt] at h
  cases hs : (Producer.produce (Producer.after k g)).1 with
  | error f =>
    rw [hs] at h
    cases h
  | ok s =>
    rw [hs] at h
    exact ⟨s, rfl, h⟩

theorem replays_of_lines {g : Generator σ τ} (punctual : g.Punctual) {lines : List Text}
    (encoded : ∀ k line, lines[k]? = some line → Producer.lineAt g k = .ok line) (k : Nat)
    (line : Text) (hk : lines[k]? = some line) : g.Replays k line := by
  have hmade : ∀ j, j < k → ∃ s, (Producer.produce (Producer.after j g)).1 = .ok s := by
    intro j hj
    have hlt : j < lines.length := Nat.lt_trans hj (List.getElem?_eq_some_iff.1 hk).1
    obtain ⟨s, hs, -⟩ := lineAt_ok (encoded j lines[j] (List.getElem?_eq_getElem hlt))
    exact ⟨s, hs⟩
  obtain ⟨s, hs, hline⟩ := lineAt_ok (encoded k line hk)
  obtain ⟨r, hr, rfl⟩ := (Record.encode_eq_ok_iff s line).1 hline
  have hclock : Clock.reading g.clock k = .ok s.time := by
    rw [Clock.reading, ← after_clock k hmade, produce_clock hs]
  have hoffset : (1000000 : Int) ∣ r.offset.micros := by
    rw [hr.time] at hclock
    exact punctual k r.stamp r.offset hclock rfl
  have hkept : r.kept = r := by
    rw [Record.kept_eq_iff]
    omega
  refine ⟨s, r, hs, hclock, hline, hr, fun room => ?_⟩
  rw [Record.read_line, hkept]

end Generator

namespace Session

variable {γ : Type} [Producer γ]

theorem opened_of_returned {collector : Collector} {settings : Settings} {producer : γ}
    {schedule : Schedule} {plan : Plan} {span : Span} {w : World} {limit : Option Int}
    {turns n : Nat}
    (h : (run collector settings producer schedule plan limit span turns w).1 = .returned n) :
    ∃ session r, start settings producer schedule plan span.opening w = (.goesOn, session, r) := by
  rcases opened_or_failed collector settings producer schedule plan limit span turns w with
    hopened | ⟨f, session, r, -, hrun, -⟩
  · exact hopened
  · rw [hrun] at h
    cases h

variable {σ τ : Type} [Source σ] [Clock τ]

/-- A session that returns `n` has written `n` lines, the same to the file and to the output, which
are found by splitting and read as its samples and times. The last part is why: no line that is
ever encoded holds a line end, or anything but visible ASCII. -/
theorem run_replays {collector : Collector} {settings : Settings} {g : Generator σ τ}
    {schedule : Schedule} {plan : Plan} {span : Span} {w : World} {limit : Option Int}
    {turns n : Nat} (punctual : g.Punctual)
    (apart : Apart settings (start settings g schedule plan span.opening w).2.2.world.disk)
    (returned : (run collector settings g schedule plan limit span turns w).1 = .returned n) :
    let opened := (start settings g schedule plan span.opening w).2.2.world
    let closed := (run collector settings g schedule plan limit span turns w).2.world
    (∃ (l : Location) (bytes : Bytes) (text : Text) (lines : List Text),
      opened.disk.locate settings.outputPath = .ok l ∧
      closed.disk.read settings.outputPath =
        .ok ((if settings.append then w.disk.held l else []) ++ bytes) ∧
      Utf8.decode bytes = .ok text ∧ closed.stdout.text = w.stdout.text ++ text ∧
      Text.splitOn 10 text = lines ++ [[]] ∧ lines.length = n ∧
      ∀ k line, lines[k]? = some line → g.Replays k line) ∧
    ∀ (s : Sample) (line : Text), s.encode = .ok line →
      line ≠ [] ∧ Within 32 126 line ∧ (Sink.bytesOf line).length = line.length + 1 := by
  have hvisible : ∀ (s : Sample) (line : Text), s.encode = .ok line →
      line ≠ [] ∧ Within 32 126 line ∧ (Sink.bytesOf line).length = line.length + 1 := by
    intro s line h
    obtain ⟨r, -, rfl⟩ := (Record.encode_eq_ok_iff s line).1 h
    exact ⟨r.line_ne_nil, r.line_visible, Sink.bytesOf_length r.line_visible⟩
  obtain ⟨session, r, hstart⟩ := opened_of_returned returned
  rw [hstart] at apart ⊢
  obtain ⟨l, lines, lost, hl, -, settled⟩ := run_settled collector limit turns hstart apart
  obtain rfl : lost = none := by
    cases hlost : lost with
    | none => rfl
    | some a =>
      obtain ⟨-, f, hf⟩ := settled.failed a hlost
      rw [returned] at hf
      cases hf
  have hlines : ∀ line ∈ lines, Within 32 126 line := by
    intro line hline
    obtain ⟨k, hk⟩ := List.mem_iff_getElem?.1 hline
    obtain ⟨s, -, hs⟩ := Generator.lineAt_ok (settled.encoded k line hk)
    exact (hvisible s line hs).2.1
  obtain ⟨append, hfile⟩ := settled.file
  have hheard := settled.heard
  rw [Option.toList_none, List.append_nil, Sink.tapeAfter_kept] at hfile
  rw [Run.echoed, List.append_nil] at hheard
  constructor
  · exact ⟨l, Sink.written lines, Sink.shown lines, lines, hl, hfile, Sink.decode_written hlines,
      hheard, Sink.splitOn_shown hlines, (settled.number n returned).symm,
      Generator.replays_of_lines punctual settled.encoded⟩
  · exact hvisible

structure Steady where
  number : Number

instance : Source Steady := ⟨fun _ _ s => (.ok s.number, s), fun _ _ s => (.ok s.number, s)⟩

def steady : Generator Steady AnyClock := ⟨⟨.double (.zero true)⟩, .still dawn.localTime, false⟩

def dawnRecord : Record :=
  ⟨⟨.zero true, Record.zero_isFinite true⟩, ⟨.zero true, Record.zero_isFinite true⟩,
    ⟨.zero true, Record.zero_isFinite true⟩, ⟨.zero true, Record.zero_isFinite true⟩,
    dawn.localTime.date, dawn.localTime.time, .utc⟩

def oneFile : Settings := ⟨⟨0, [lit "f"]⟩, true, false, none, .info⟩

theorem emit_unplanned {line : Text} {b : UInt8} {data : Bytes} {s : Sink} {w : World}
    {id position : Nat} {append : Bool}
    (hfile : s.file = some ⟨id, position, append, false, .none⟩) (houtlet : s.outlet = none)
    (hstdout : w.stdout = .ofKind .unicode)
    (hdata : Utf8.encode (line ++ [10]) = .ok (b :: data)) :
    ∃ size s' w' p, s.emit line w = (.ok size, s', w') ∧
      s'.file = some ⟨id, p, append, false, .none⟩ := by
  simp only [Sink.emit, hfile, hdata, Sink.persist, Sink.echo, houtlet, Handle.tell, Plan.none,
    nextPlanned, Handle.guarded, Handle.writeAll, Handle.writeSteps, Handle.sync, hstdout]
  exact ⟨_, _, _, _, rfl, rfl⟩

theorem steady_made : (Producer.produce steady).1.bind Sample.encode = .ok dawnRecord.line := by
  have hmade : (Producer.produce steady).1 = .ok dawnRecord.toSample := rfl
  rw [hmade]
  exact (Record.encode_eq_ok_iff _ _).2 ⟨dawnRecord, Record.toSample_holds dawnRecord, rfl⟩

theorem dawnRecord_bytes :
    ∃ b data, Utf8.encode (dawnRecord.line ++ [10]) = .ok (b :: data) := by
  have hencode := Utf8.encode_ascii (Sink.recordOf_ascii dawnRecord.line_visible)
  obtain ⟨c, t, hline⟩ := List.exists_cons_of_ne_nil dawnRecord.line_ne_nil
  rw [Sink.recordOf] at hencode
  rw [hencode, hline]
  exact ⟨_, _, rfl⟩

theorem run_steady :
    (run keeper oneFile steady .never .none (some 1) morning 1 bare).1 = .returned 1 := by
  obtain ⟨r, hstart, hproducer, hfile, houtlet, hstdout, hmeter, hstop, hemitted⟩ :
      ∃ r, start oneFile steady .never .none morning.opening bare = (.goesOn, ⟨none⟩, r) ∧
        r.simulation.producer = steady ∧
        r.simulation.sink.file = some ⟨0, 0, true, false, .none⟩ ∧
        r.simulation.sink.outlet = none ∧ r.world.stdout = .ofKind .unicode ∧
        r.simulation.meter = none ∧ r.stop = .ofSchedule .never ∧ r.emitted = 0 :=
    ⟨_, rfl, rfl, rfl, rfl, rfl, rfl, rfl, rfl⟩
  obtain ⟨b, data, hdata⟩ := dawnRecord_bytes
  obtain ⟨size, sink, w, p, hemit, hsink⟩ := emit_unplanned hfile houtlet hstdout hdata
  have hstep : ∃ r', r.emit = (.ok (), r') ∧ r'.emitted = 1 ∧ r'.simulation.sink = sink := by
    simp only [Run.emit, Simulation.step, hproducer, steady_made, hemit, Simulation.count, hmeter,
      hemitted]
    exact ⟨_, rfl, rfl, rfl⟩
  obtain ⟨r', hemit', hone, hsink'⟩ := hstep
  have hgo : ∃ r'', r.go (some 1) 1 = (.returned 1, r'') ∧ r''.simulation.sink = sink := by
    have hset : r.stop.isSet = false := by
      rw [hstop]
      rfl
    have hfull : Run.isFull (some 1) 1 = true := rfl
    simp only [Run.go, Run.turn, hset, hemit', hone, hfull, Run.finish]
    exact ⟨_, rfl, hsink'⟩
  obtain ⟨r'', hgo, hsink''⟩ := hgo
  rw [run_started keeper (some 1) 1 hstart, hgo]
  simp only [close, release, Sink.leave, Sink.release, hsink'', hsink, exportCounters]
  rfl

theorem after_still (s : Stamp) (k : Nat) : Clock.after k (AnyClock.still s) = .still s := by
  induction k with
  | zero => rfl
  | succ k ih => exact ih

theorem steady_punctual : steady.Punctual := by
  intro k t o ht ho
  have hreading : Clock.reading steady.clock k = .ok (.stamp dawn.localTime) := by
    rw [Clock.reading, steady, after_still]
    rfl
  rw [hreading] at ht
  obtain rfl : dawn.localTime = t := by simpa using ht
  obtain rfl : Offset.utc = o := Option.some.inj ho
  exact Int.dvd_zero _

theorem run_replays_steady :
    (run keeper oneFile steady .never .none (some 1) morning 1 bare).1 = .returned 1 ∧
      ∃ line, steady.Replays 0 line ∧ Text.splitOn 10
        (run keeper oneFile steady .never .none (some 1) morning 1 bare).2.world.stdout.text =
          [line, []] := by
  have hreturned := run_steady
  have hapart :
      Apart oneFile (start oneFile steady .never .none morning.opening bare).2.2.world.disk := by
    intro m hm
    cases hm
  obtain ⟨⟨l, bytes, text, lines, -, -, -, hstdout, hsplit, hcount, hreplays⟩, -⟩ :=
    run_replays steady_punctual hapart hreturned
  obtain ⟨line, rfl⟩ := List.length_eq_one_iff.1 hcount
  constructor
  · exact hreturned
  · exact ⟨line, hreplays 0 line rfl, by rw [hstdout]; exact hsplit⟩

end Session

end HostTelemetry
