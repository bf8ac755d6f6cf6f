import HostTelemetry.Proofs.Simulation.Unopened
import HostTelemetry.Proofs.Sink.Framing

/-!
# What a session leaves behind its whole records

A line that is lost leaves its whole record in the file, or some bytes of it, or nothing. Bytes of
a record are left if a write fails after some of them and they are not cut off again, and an
interrupt does that: cutting off waits for the faults of the system and of values only. An interrupt
anywhere else leaves whole records.
-/

set_option autoImplicit false

namespace HostTelemetry

open Sink (Fate Framed Recovers Undone keptAll tapeAfter written bytesOf)

namespace Sink

def completed : Option (Text × Fate) → List Text
  | some (line, fate) => if fate.isFiled then [line] else []
  | none => []

/-- What is left in the file of a record that was cut. -/
def remains : Option (Text × Fate) → Bytes
  | some (line, .cut taken false) => (bytesOf line).take taken
  | _ => []

def Torn (lost : Option (Text × Fate)) : Prop :=
  ∃ line taken, lost = some (line, .cut taken false) ∧ 0 < taken

theorem tapeAfter_ends (append : Bool) (lines : List Text) (lost : Option (Text × Fate))
    (base : Bytes) :
    (tapeAfter append (keptAll lines ++ lost.toList) ⟨base, base.length⟩).bytes =
      base ++ written (lines ++ completed lost) ++ remains lost := by
  rcases lost with _ | ⟨line, fate⟩
  · simp [tapeAfter_kept, completed, remains]
  · rw [Option.toList_some, Session.tapeAfter_lost]
    cases fate with
    | cut taken undone => cases undone <;> simp [completed, remains, Fate.isFiled]
    | _ => simp [completed, remains, Fate.isFiled]

theorem remains_eq_nil {lost : Option (Text × Fate)} (h : ¬Torn lost) : remains lost = [] := by
  rcases lost with _ | ⟨line, fate⟩
  · rfl
  · cases fate with
    | cut taken undone =>
      cases undone with
      | true => rfl
      | false =>
        obtain rfl : taken = 0 := by
          by_contra hne
          exact h ⟨line, taken, rfl, Nat.pos_of_ne_zero hne⟩
        rfl
    | _ => rfl

/-- What an attempt comes to: a line that is tried is visible, and a write that is cut has not taken
the whole record. -/
def Sound (a : Text × Fate) : Prop :=
  a.2 ≠ .untried → Text.Within 32 126 a.1 ∧
    ∀ taken undone, a.2 = .cut taken undone → taken < (bytesOf a.1).length

theorem completed_visible {lost : Option (Text × Fate)} (sound : ∀ a, lost = some a → Sound a)
    {line : Text} (h : line ∈ completed lost) : Text.Within 32 126 line := by
  rcases lost with _ | ⟨l, fate⟩
  · cases h
  · rw [completed] at h
    split at h
    · rename_i hfiled
      obtain rfl := List.mem_singleton.1 h
      refine (sound _ rfl fun huntried => ?_).1
      rw [show fate = .untried from huntried] at hfiled
      cases hfiled
    · cases h

theorem not_framed_remains {lost : Option (Text × Fate)} (torn : Torn lost)
    (sound : ∀ a, lost = some a → Sound a) (front : Bytes) : ¬Framed (front ++ remains lost) := by
  obtain ⟨line, taken, rfl, hpos⟩ := torn
  obtain ⟨hvisible, hcut⟩ := sound _ rfl nofun
  have hshort : taken < (bytesOf line).length := hcut taken false rfl
  rw [bytesOf_eq, List.length_append, List.length_singleton] at hshort
  have hremains : remains (some (line, .cut taken false)) = (lineBytes line).take taken := by
    rw [remains, bytesOf_eq, List.take_append_of_le_length (by omega)]
  have hne : (lineBytes line).take taken ≠ [] := by
    intro hnil
    have hlength := congrArg List.length hnil
    rw [List.length_take, List.length_nil] at hlength
    omega
  rw [hremains, framed_append hne]
  intro hlast
  exact not_mem_lineBytes hvisible (List.mem_of_mem_take (List.mem_of_getLast? hlast))

theorem fate_sound {line : Text} (hvisible : Text.Within 32 126 line) {h : Handle} {s : Sink}
    {w : World} (hfile : s.file = some h) (hopen : h.closed = false) :
    Sound (line, s.fate line w) := by
  refine fun _ => ⟨hvisible, fun taken undone hf => ?_⟩
  obtain ⟨h', offset, hfollows, hp⟩ := persistFate_of_fate hfile hf
  exact (persistFate_cut (hfollows.closed_eq.trans hopen) hp).1

end Sink

open Sink (Sound Torn completed remains)

theorem Producer.exists_record {γ : Type} [Producer γ] {p : γ} {line : Text}
    (h : (Producer.produce p).1.bind Sample.encode = .ok line) :
    ∃ record : Record, record.line = line := by
  cases hs : (Producer.produce p).1 with
  | error f =>
    rw [hs] at h
    cases h
  | ok s =>
    rw [hs] at h
    obtain ⟨record, -, hline⟩ := (Record.encode_eq_ok_iff s line).1 h
    exact ⟨record, hline⟩

namespace Run

variable {γ : Type} [Producer γ] {r r' : Run γ} {h : Handle} {base : Bytes} {lines : List Text}

theorem attempts_forall {P : Text × Fate → Prop} (limit : Option Int) (turns : Nat)
    (hopen : h.closed = false) (books : Books r h base lines none r')
    (step : ∀ lines r'', Books r h base lines none r'' → P (r''.simulation.attempt r''.world)) :
    ∀ a ∈ attempts limit turns r', P a := by
  induction turns generalizing r' lines with
  | zero => simp [attempts]
  | succ turns ih =>
    by_cases hstop : r'.stop.isSet
    · simp [attempts, hstop]
    · obtain ⟨p, r₁, more, lost, hturn, hbooks, -, hends⟩ :=
        turn_books limit hopen (by simpa using hstop) books
      rw [attempts_succ limit turns (by simpa using hstop) hturn]
      refine List.forall_mem_cons.2 ⟨step lines r' books, ?_⟩
      cases p with
      | goesOn =>
        obtain rfl := hends.lost_none
        exact ih hbooks
      | returned n => simp
      | failed f => simp

theorem Books.attempt_cases (books : Books r h base lines none r') (hopen : h.closed = false) :
    r'.simulation.attempt r'.world = ([], .untried) ∨
      ∃ (record : Record) (h' : Handle), r'.simulation.sink.file = some h' ∧ h'.closed = false ∧
        h.Follows h' ∧ r'.simulation.attempt r'.world =
          (record.line, r'.simulation.sink.fate record.line r'.world) := by
  obtain ⟨h', hfile, hleft⟩ := books.file
  cases hmade : (Producer.produce r'.simulation.producer).1.bind Sample.encode with
  | error f => exact Or.inl (attempt_error r'.world hmade)
  | ok line =>
    obtain ⟨record, rfl⟩ := Producer.exists_record hmade
    exact Or.inr ⟨record, h', hfile, hleft.follows.closed_eq.trans hopen, hleft.follows,
      attempt_ok r'.world hmade⟩

theorem Books.attempt_sound (books : Books r h base lines none r') (hopen : h.closed = false) :
    Sound (r'.simulation.attempt r'.world) := by
  rcases books.attempt_cases hopen with htried | ⟨record, h', hfile, hopen', -, htried⟩
  · rw [htried]
    exact fun hne => absurd rfl hne
  · rw [htried]
    exact Sink.fate_sound record.line_visible hfile hopen'

theorem Books.attempt_undone (books : Books r h base lines none r') (hopen : h.closed = false)
    (recovers : Recovers h.plan) : Undone (r'.simulation.attempt r'.world) := by
  rcases books.attempt_cases hopen with htried | ⟨record, h', hfile, hopen', hfollows, htried⟩
  · rw [htried]
    exact fun taken undone hcut => by cases hcut
  · rw [htried]
    exact Sink.fate_undone record.line h' _ _ hfile hopen' (recovers.follows hfollows)

end Run

namespace Session

variable {γ : Type} {settings : Settings} {producer : γ} {schedule : Schedule} {plan : Plan}
  {now : Moment} {w : World} {session : Session} {r : Run γ}

theorem refusal_kind {path : Path} {g : Fault} (blames : Disk.Blames path g)
    {wrap : Fault → Failure} (hwrap : (wrap g).kind = .acquire) :
    (g.toFailure Fault.isSystem wrap).kind ≠ .interrupt := by
  obtain ⟨-, hf⟩ | ⟨hno, hf⟩ := g.toFailure_cases Fault.isSystem wrap
  · rw [hf, hwrap]
    exact nofun
  · rw [hf]
    intro hkind
    have hvalue := (Path.refusal_isValue (blames.refused hno)).2
    rw [Fault.isValue, show g.kind = .interrupt from hkind] at hvalue
    cases hvalue

theorem acquireBook_kind {f : Failure} {v : World}
    (h : acquireBook settings now w = (.error f, v)) : f.kind ≠ .interrupt := by
  cases acquires_of_eq h with
  | refused path raised =>
    rcases MetricFile.acquire_blames raised with hblames | hblames
    · exact refusal_kind hblames rfl
    · exact refusal_kind hblames rfl

theorem start_kind {f : Failure}
    (failed : start settings producer schedule plan now w = (.failed f, session, r)) :
    f.kind ≠ .interrupt := by
  cases starts_of_eq failed with
  | bookless refused => exact acquireBook_kind refused
  | fileless acquired refused => exact refusal_kind (Disk.acquire_blames refused) rfl

theorem start_planned
    (opened : start settings producer schedule plan now w = (.goesOn, session, r)) {h : Handle}
    (hfile : r.simulation.sink.file = some h) : h.plan = plan := by
  cases starts_of_eq opened with | opened acquired opens
  obtain ⟨h', -, rfl⟩ := Option.map_eq_some_iff.1 hfile
  rfl

variable [Producer γ] {collector : Collector} {limit : Option Int} {span : Span} {turns : Nat}

theorem opened_of_interrupt {f : Failure}
    (interrupted : (run collector settings producer schedule plan limit span turns w).1 = .failed f)
    (kind : f.kind = .interrupt) :
    ∃ session r, start settings producer schedule plan span.opening w = (.goesOn, session, r) := by
  rcases opened_or_failed collector settings producer schedule plan limit span turns w with
    hopened | ⟨g, session, r, hstart, hrun, -⟩
  · exact hopened
  · rw [hrun] at interrupted
    cases interrupted
    exact absurd kind (start_kind hstart)

theorem run_ends (collector : Collector) (limit : Option Int) (turns : Nat)
    (opened : start settings producer schedule plan span.opening w = (.goesOn, session, r))
    (apart : Apart settings r.world.disk) :
    ∃ l lines lost, r.world.disk.locate settings.outputPath = .ok l ∧
      r.attempts limit turns = keptAll lines ++ lost.toList ∧
      Settled settings producer (if settings.append then w.disk.held l else []) w.stdout.text
        lines lost (run collector settings producer schedule plan limit span turns w) ∧
      (run collector settings producer schedule plan limit span turns w).2.world.disk.read
          settings.outputPath =
        .ok ((if settings.append then w.disk.held l else []) ++ written (lines ++ completed lost) ++
          remains lost) ∧
      (∀ a, lost = some a → Sound a) ∧ (Recovers plan → ¬Torn lost) := by
  obtain ⟨l, lines, lost, hl, htried, settled⟩ := run_settled collector limit turns opened apart
  obtain ⟨h, l', start⟩ := start_opened opened apart
  have hlast : ∀ a, lost = some a → a ∈ r.attempts limit turns := by
    rintro a rfl
    rw [htried]
    exact List.mem_append_right _ (List.mem_singleton_self a)
  refine ⟨l, lines, lost, hl, htried, settled, ?_, fun a ha => ?_, ?_⟩
  · obtain ⟨append, hfile⟩ := settled.file
    rw [hfile, Sink.tapeAfter_ends]
  · exact Run.attempts_forall limit turns start.opened start.books
      (fun _ _ books => books.attempt_sound start.opened) a (hlast a ha)
  · rintro recovers ⟨line, taken, rfl, -⟩
    rw [← start_planned opened start.file] at recovers
    have hundone := Run.attempts_forall limit turns start.opened start.books
      (fun _ _ books => books.attempt_undone start.opened recovers) _ (hlast _ rfl)
    cases (hundone taken false rfl).2

/-- However a session is interrupted, its file holds what it began with, the records of the steps
that were completed, and the record that was lost, if its write was completed. Behind them stands
nothing, exactly if no record is torn; and none is if only writes and truncations are spared. -/
theorem run_interrupted {f : Failure}
    (apart : Apart settings (start settings producer schedule plan span.opening w).2.2.world.disk)
    (interrupted : (run collector settings producer schedule plan limit span turns w).1 = .failed f)
    (kind : f.kind = .interrupt) :
    let opened := (start settings producer schedule plan span.opening w).2.2
    let closed := (run collector settings producer schedule plan limit span turns w).2
    ∃ (l : Location) (lines : List Text) (lost : Option (Text × Fate)),
      opened.world.disk.locate settings.outputPath = .ok l ∧
      opened.attempts limit turns = keptAll lines ++ lost.toList ∧
      closed.emitted = lines.length ∧
      (∀ k line, lines[k]? = some line → Producer.lineAt producer k = .ok line) ∧
      let base := if settings.append then w.disk.held l else []
      let file := closed.world.disk.read settings.outputPath
      file = .ok (base ++ written (lines ++ completed lost) ++ remains lost) ∧
      (¬Torn lost → file = .ok (base ++ written (lines ++ completed lost))) ∧
      (Framed base → ((∃ records, file = .ok (base ++ written records)) ↔ ¬Torn lost)) ∧
      (Recovers plan → ¬Torn lost) := by
  intro opened closed
  obtain ⟨session, r, hstart⟩ := opened_of_interrupt interrupted kind
  obtain rfl : opened = r := congrArg (·.2.2) hstart
  obtain ⟨l, lines, lost, hl, htried, settled, hfile, hsound, hrecovers⟩ :=
    run_ends collector limit turns hstart apart
  have hwhole : ¬Torn lost → closed.world.disk.read settings.outputPath =
      .ok ((if settings.append then w.disk.held l else []) ++
        written (lines ++ completed lost)) := by
    intro htorn
    rw [hfile, Sink.remains_eq_nil htorn, List.append_nil]
  refine ⟨l, lines, lost, hl, htried, settled.emitted_eq, settled.encoded, hfile, hwhole,
    fun hframed => ⟨?_, fun htorn => ⟨_, hwhole htorn⟩⟩, hrecovers⟩
  -- Remains end no line, but whole records do.
  rintro ⟨records, hrecords⟩ htorn
  rw [hfile] at hrecords
  have hunframed := Sink.not_framed_remains htorn hsound
    ((if settings.append then w.disk.held l else []) ++ written (lines ++ completed lost))
  rw [Except.ok.inj hrecords] at hunframed
  exact hunframed (Sink.framed_written hframed records)

def freshFile : Settings := { oneFile with append := false }

theorem run_interrupted_waiting :
    let e := run keeper freshFile steady ⟨false, none, none, some 1⟩ .none none morning 1 bare
    e.1 = .failed (.passed .interrupt) ∧
      ∃ records, e.2.world.disk.read freshFile.outputPath = .ok (written records) := by
  intro e
  have hinterrupted : e.1 = .failed (.passed .interrupt) := by decide +kernel
  have hapart : Apart freshFile (start freshFile steady ⟨false, none, none, some 1⟩ .none
      morning.opening bare).2.2.world.disk := nofun
  obtain ⟨l, lines, lost, -, -, -, -, -, hwhole, -, hrecovers⟩ :=
    run_interrupted hapart hinterrupted rfl
  exact ⟨hinterrupted, _, hwhole (hrecovers ⟨nofun, nofun⟩)⟩

def interruptedWrite : Plan := ⟨[], [.atMost 3, .fails .interrupt], [], [], []⟩

/-- An interrupt may leave a record that is torn. -/
theorem not_run_whole :
    ¬∀ (collector : Collector) (settings : Settings) (g : Generator Steady AnyClock)
      (schedule : Schedule) (plan : Plan) (limit : Option Int) (span : Span) (turns : Nat)
      (w : World) (f : Failure),
      (run collector settings g schedule plan limit span turns w).1 = .failed f →
        f.kind = .interrupt → Framed (w.disk.base settings.outputPath settings.append) →
          ∃ records, (run collector settings g schedule plan limit span turns w).2.world.disk.read
            settings.outputPath =
              .ok (w.disk.base settings.outputPath settings.append ++ written records) := by
  intro h
  have hinterrupted : (run keeper freshFile steady .never interruptedWrite none morning 1 bare).1 =
      .failed (.passed .interrupt) := by decide +kernel
  have hfile : (run keeper freshFile steady .never interruptedWrite none morning 1
      bare).2.world.disk.read freshFile.outputPath = .ok [123, 34, 99] := by decide +kernel
  obtain ⟨records, hrecords⟩ := h _ _ _ _ _ _ _ _ _ _ hinterrupted rfl (Or.inl rfl)
  rw [hfile] at hrecords
  have hframed := Sink.framed_written (Or.inl rfl) records
  rw [← show [123, 34, 99] = [] ++ written records from Except.ok.inj hrecords] at hframed
  exact absurd hframed (by decide)

end Session

end HostTelemetry
