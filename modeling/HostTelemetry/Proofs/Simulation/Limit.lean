import HostTelemetry.Proofs.Simulation.Growth

/-!
# The limit of a run

The limit is looked at behind a sample. A run tries no more samples than a positive limit says, but
one with a limit of 0 tries one too, unless it is told to stop from the start. What it adds to file
and outlet, and what it returns, is bounded by the samples that it tries. In a session nothing else
adds to them, except that the counters may go to the output file.
-/

set_option autoImplicit false

namespace HostTelemetry

open Sink (shown written)

theorem Stop.ofSchedule_isSet (schedule : Schedule) :
    (Stop.ofSchedule schedule).isSet = schedule.fromStart := by
  have hnever : ∀ planned, reached planned 0 = false := by
    intro planned
    rcases planned with _ | _ | k <;> rfl
  simp [isSet, ofSchedule, hnever]

namespace Run

variable {γ : Type} [Producer γ]

theorem attempts_length (n turns : Nat) (r : Run γ) :
    (r.attempts (some n) turns).length ≤ max 1 (n - r.emitted) := by
  induction turns generalizing r with
  | zero => exact Nat.zero_le _
  | succ turns ih =>
    cases hstop : r.stop.isSet with
    | true =>
      rw [attempts, if_pos hstop]
      exact Nat.zero_le _
    | false =>
      obtain ⟨p, r₁, hturn, -, hturned⟩ := turn_grows (some n) hstop
      rw [attempts_succ _ turns hstop hturn, List.length_cons]
      cases p with
      | goesOn =>
        -- the run goes on below its limit, so there is more left than for one sample
        obtain ⟨hmore, hbelow⟩ := hturned.below rfl
        have hleft := ih r₁
        simp only [isFull, decide_eq_false_iff_not] at hbelow
        dsimp only
        omega
      | returned m => exact Nat.le_max_left 1 _
      | failed f => exact Nat.le_max_left 1 _

theorem attempts_eq_nil_iff (limit : Option Int) (turns : Nat) (r : Run γ) :
    r.attempts limit turns = [] ↔ turns = 0 ∨ r.stop.isSet = true := by
  cases turns with
  | zero => simp [attempts]
  | succ turns =>
    cases hstop : r.stop.isSet with
    | true => simp [attempts, hstop]
    | false => simp [attempts, hstop]

theorem attempts_bounded (n turns : Nat) {r : Run γ} (hnew : r.emitted = 0) :
    (r.attempts (some n) turns).length ≤ max 1 n ∧
      ((r.attempts (some n) turns).length ≤ n ↔ 0 < n ∨ turns = 0 ∨ r.stop.isSet = true) := by
  have hbound := attempts_length n turns r
  rw [hnew, Nat.sub_zero] at hbound
  refine ⟨hbound, ?_⟩
  rw [← attempts_eq_nil_iff (some n), ← List.length_eq_zero_iff]
  omega

end Run

theorem Sink.leave_same (inFlight : Bool) (s : Sink) (w : World) :
    (s.leave inFlight w).2.2.disk = w.disk ∧ (s.leave inFlight w).2.2.stdout = w.stdout := by
  rw [leave]
  rcases s.release with ⟨_ | _, s'⟩
  · dsimp only
    split <;> exact ⟨rfl, rfl⟩
  · exact ⟨rfl, rfl⟩

namespace Session

variable {γ : Type} {settings : Settings} {producer : γ} {schedule : Schedule} {plan : Plan}
  {now : Moment} {w : World} {session : Session} {r : Run γ}

theorem acquireBook_lineEnds (settings : Settings) (now : Moment) (w : World) (l : Location) :
    lineEnds ((acquireBook settings now w).2.disk.held l) ≤ lineEnds (w.disk.held l) := by
  rw [acquireBook_world]
  cases settings.metricsPath with
  | none => exact Nat.le_refl _
  | some m => exact MetricFile.acquire_lineEnds m w.disk l

def Keeps (settings : Settings) (now : Moment) (session : Session) : Prop :=
  ∀ b, session.book = some b →
    settings.metricsPath = some b.file.path ∧ b.start = now.nanoseconds

theorem acquireBook_keeps {book : Option MeterBook} {v : World}
    (h : acquireBook settings now w = (.ok book, v)) : Keeps settings now ⟨book⟩ := by
  intro b hb
  cases acquires_of_eq h with
  | unasked path => cases hb
  | acquired path made =>
    obtain rfl := Option.some.inj hb
    exact ⟨path.trans (congrArg some (MetricFile.acquire_ok made).1.symm), rfl⟩

/-- What a file holds that is not to be counted: what it held before the session, unless it was
opened to be emptied. -/
def old (settings : Settings) (opened : Bool) (w : World) (l : Location) : Bytes :=
  if opened && !settings.append then [] else w.disk.held l

structure Begun (settings : Settings) (schedule : Schedule) (now : Moment) (w : World)
    (session : Session) (r : Run γ) : Prop where
  file : ∃ l, r.world.disk.locate settings.outputPath = .ok l ∧
    lineEnds (r.world.disk.held l) ≤ lineEnds (old settings true w l)
  stdout_eq : r.world.stdout = w.stdout
  outlet_eq : r.simulation.sink.outlet = none
  stop_eq : r.stop = .ofSchedule schedule
  emitted_eq : r.emitted = 0
  keeps : Keeps settings now session

theorem start_begun
    (opened : start settings producer schedule plan now w = (.goesOn, session, r)) :
    Begun settings schedule now w session r := by
  have hlines := acquireBook_lineEnds settings now w
  have hstdout := acquireBook_stdout settings now w
  cases starts_of_eq opened with | opened acquired opens
  rw [acquired] at hlines hstdout
  obtain ⟨i, hacquire⟩ := Sink.acquire_disk opens
  obtain ⟨l, -, hl, hnode, -⟩ := Disk.acquire_frame hacquire
  obtain ⟨h, -, rfl, -, -, -, -, hstdout', -⟩ := Sink.acquire_opened opens
  constructor
  case file =>
    refine ⟨l, hl, ?_⟩
    unfold old
    cases happend : settings.append with
    | true => exact (Disk.acquire_lineEnds hacquire l).trans (hlines l)
    | false =>
      have hempty := Disk.acquire_base hacquire
      simp only [happend, Disk.base, Bool.false_eq_true, if_false] at hempty
      exact (congrArg lineEnds ((Disk.held_of_node hnode).trans hempty)).le
  case stdout_eq => exact hstdout'.trans hstdout
  case outlet_eq => rfl
  case stop_eq => rfl
  case emitted_eq => rfl
  case keeps => exact acquireBook_keeps acquired

theorem start_refused {f : Failure}
    (failed : start settings producer schedule plan now w = (.failed f, session, r)) :
    Keeps settings now session ∧ r.world.stdout = w.stdout ∧
      ∀ l, lineEnds (r.world.disk.held l) ≤ lineEnds (w.disk.held l) := by
  have hlines := acquireBook_lineEnds settings now w
  have hstdout := acquireBook_stdout settings now w
  cases starts_of_eq failed with
  | bookless refused =>
    rw [refused] at hlines hstdout
    exact ⟨nofun, hstdout, hlines⟩
  | fileless acquired refused =>
    rw [acquired] at hlines hstdout
    exact ⟨acquireBook_keeps acquired, hstdout, hlines⟩

def exported (collector : Collector) (span : Span) : Option Meter → Bytes
  | none => []
  | some m =>
    let reports := m.report collector span.opening.nanoseconds span.closing.nanoseconds
    MetricFile.asciiBytes
      (MetricFile.joined (Report.lines (span.closing.localTime.render (cp 'T') .nonzero) reports)).2

theorem exportCounters_appends {span : Span} (collector : Collector)
    (keeps : Keeps settings span.opening session) (meter : Option Meter) (w : World) :
    MetricFile.Appends settings.metricsPath (exported collector span meter) w
      (session.exportCounters collector span.closing meter w) := by
  unfold exportCounters
  rcases hbook : session.book with _ | b
  · exact .same rfl rfl
  cases meter with
  | none => exact .same rfl rfl
  | some m =>
    obtain ⟨hpath, hstart⟩ := keeps b hbook
    dsimp only
    rw [exported, hpath, hstart]
    generalize m.report collector span.opening.nanoseconds span.closing.nanoseconds = reports
    cases reports with
    | nil => exact .same rfl rfl
    | cons report reports => exact MetricFile.write_appends _ (report :: reports) b.file w

theorem release_same (p : Progress) (r : Run γ) :
    (release p r).2.world.disk = r.world.disk ∧ (release p r).2.world.stdout = r.world.stdout ∧
      (release p r).2.simulation.meter = r.simulation.meter ∧
      ∀ m, (release p r).1 = .returned m → p = .returned m := by
  obtain ⟨hdisk, hstdout⟩ := Sink.leave_same p.isFailed r.simulation.sink r.world
  unfold release
  rcases hleave : r.simulation.sink.leave p.isFailed r.world with ⟨_ | _, s, v⟩
  · rw [hleave] at hdisk hstdout
    exact ⟨hdisk, hstdout, rfl, nofun⟩
  · rw [hleave] at hdisk hstdout
    exact ⟨hdisk, hstdout, rfl, fun _ h => h⟩

theorem close_appends {span : Span} (collector : Collector)
    (keeps : Keeps settings span.opening session) (p : Progress) (r : Run γ) :
    let e := session.close collector span.closing p r
    MetricFile.Appends settings.metricsPath (exported collector span e.2.simulation.meter) r.world
        e.2.world ∧
      ∀ m, e.1 = .returned m → p = .returned m := by
  obtain ⟨hdisk, hstdout, hmeter, hreturned⟩ := release_same p r
  rcases hrelease : release p r with ⟨p', r'⟩
  rw [hrelease] at hdisk hstdout hmeter hreturned
  have happends := exportCounters_appends collector keeps r'.simulation.meter r'.world
  rw [close, hrelease]
  exact ⟨happends.after hdisk hstdout, hreturned⟩

theorem output_appends {print : Bytes} {w' : World} {l : Location}
    (appends : MetricFile.Appends settings.metricsPath print w w')
    (located : w'.disk.locate settings.outputPath = .ok l) :
    ∃ lines counters, w'.disk.held l = lines ++ counters ∧
      lineEnds lines ≤ lineEnds (w.disk.held l) ∧
      (counters = [] ∨ ¬Apart settings w'.disk ∧ counters = print) := by
  obtain ⟨lines, counters, hheld, hlines, hcounters⟩ := appends.held l
  refine ⟨lines, counters, hheld, hlines, ?_⟩
  rcases hcounters with hnone | ⟨hprint, m, id, hm, hid, hnode⟩
  · exact Or.inl hnone
  · have hfile := Disk.file?_of_node located hnode
    exact Or.inr ⟨fun apart => apart m hm (hid.trans hfile.symm), hprint⟩

/-- A session is over, and no more than `k` records are added to the output file and to the standard
output. Only counters can stand behind the records, and only if they go to the same file. -/
structure Adds (k : Nat) (collector : Collector) (settings : Settings) (span : Span)
    (opened : Bool) (w : World) (e : Progress × Run γ) : Prop where
  returned : ∀ m, e.1 = .returned m → m ≤ k
  heard : ∃ records : List Record, records.length ≤ k ∧
    e.2.world.stdout.text = w.stdout.text ++ shown (records.map Record.line)
  file : ∀ l, e.2.world.disk.locate settings.outputPath = .ok l →
    ∃ lines counters, e.2.world.disk.held l = lines ++ counters ∧
      lineEnds lines ≤ lineEnds (old settings opened w l) + k ∧
      (counters = [] ∨ ¬Apart settings e.2.world.disk ∧
        counters = exported collector span e.2.simulation.meter)

variable [Producer γ] {span : Span} (collector : Collector) (limit : Option Int) (turns : Nat)

theorem opened_adds
    (opened : start settings producer schedule plan span.opening w = (.goesOn, session, r)) :
    Adds (r.attempts limit turns).length collector settings span true w
      (run collector settings producer schedule plan limit span turns w) := by
  have begun := start_begun opened
  obtain ⟨p, r', hgo, hgrows, hnumber⟩ := r.go_grows limit turns
  have hrun : run collector settings producer schedule plan limit span turns w =
      session.close collector span.closing p r' := by
    simp only [run, opened, hgo]
  obtain ⟨happends, hreturned⟩ := close_appends collector begun.keeps p r'
  rw [hrun]
  constructor
  case returned =>
    intro m hm
    rw [hnumber m (hreturned m hm)]
    exact hgrows.emitted_le begun.emitted_eq
  case heard =>
    obtain ⟨records, hlength, hheard⟩ := hgrows.output.heard
    have houtlet : r'.simulation.sink.outlet = none := by
      have hsame := hgrows.output.outlet
      rw [begun.outlet_eq] at hsame
      exact Option.isNone_iff_eq_none.1 (by simpa using hsame)
    rw [Sink.outletOf, Sink.outletOf, houtlet, begun.outlet_eq] at hheard
    refine ⟨records, hlength, ?_⟩
    rw [happends.stdout_eq, ← begun.stdout_eq]
    exact hheard
  case file =>
    intro l hl
    obtain ⟨l', hl', hbegun⟩ := begun.file
    -- Places only come, so the path leads where it led when the file was opened.
    have hextends := (Disk.extends_of_nodes hgrows.output.nodes).trans happends.extends_
    obtain rfl : l' = l := Except.ok.inj ((Disk.locate_extends hextends _ l' hl').symm.trans hl)
    have hgained := Disk.held_lineEnds hgrows.output.nodes hgrows.output.files l'
    obtain ⟨lines, counters, hheld, hlines, hcounters⟩ := output_appends happends hl
    exact ⟨lines, counters, hheld, by omega, hcounters⟩

theorem refused_adds {f : Failure}
    (failed : start settings producer schedule plan span.opening w = (.failed f, session, r)) :
    Adds 0 collector settings span false w
      (run collector settings producer schedule plan limit span turns w) := by
  obtain ⟨keeps, hstdout, hlines⟩ := start_refused failed
  have hrun : run collector settings producer schedule plan limit span turns w =
      session.close collector span.closing (.failed f) r := by
    simp only [run, failed]
  obtain ⟨happends, hreturned⟩ := close_appends collector keeps (.failed f) r
  rw [hrun]
  constructor
  case returned =>
    intro m hm
    cases hreturned m hm
  case heard =>
    refine ⟨[], Nat.le_refl 0, ?_⟩
    rw [happends.stdout_eq, hstdout]
    exact (List.append_nil _).symm
  case file =>
    intro l hl
    obtain ⟨lines, counters, hheld, hcounted, hcounters⟩ := output_appends happends hl
    exact ⟨lines, counters, hheld, hcounted.trans (hlines l), hcounters⟩

def tries (settings : Settings) (producer : γ) (schedule : Schedule) (plan : Plan)
    (limit : Option Int) (now : Moment) (turns : Nat) (w : World) : Nat :=
  match start settings producer schedule plan now w with
  | (.goesOn, _, r) => (r.attempts limit turns).length
  | _ => 0

/-- A run adds no more than it tries, and returns no more, whatever fails and however it is stopped.
What it tries is bounded by a positive limit. With a limit of 0 it tries one sample, just as with a
limit of 1, unless it has no turn or is told to stop from the start. The same is true of sessions,
and one that is not opened tries nothing. -/
theorem run_bounded (n turns : Nat) (schedule : Schedule) :
    (∀ (s : Simulation γ) (w : World) (stop : Stop),
      let r : Run γ := ⟨s, w, stop, 0⟩
      let k := (r.attempts (some n) turns).length
      let e := r.go (some n) turns
      k ≤ max 1 n ∧ (k ≤ n ↔ 0 < n ∨ turns = 0 ∨ stop.isSet) ∧
        Sink.Grows k s.sink w e.2.simulation.sink e.2.world ∧ ∀ m, e.1 = .returned m → m ≤ k) ∧
    ∀ (collector : Collector) (settings : Settings) (producer : γ) (plan : Plan) (span : Span)
      (w : World),
      let opened := (start settings producer schedule plan span.opening w).1 = .goesOn
      let k := tries settings producer schedule plan (some n) span.opening turns w
      k ≤ max 1 n ∧ (k ≤ n ↔ 0 < n ∨ turns = 0 ∨ schedule.fromStart ∨ ¬opened) ∧
        Adds k collector settings span opened w
          (run collector settings producer schedule plan (some n) span turns w) := by
  constructor
  · intro s w stop r k e
    obtain ⟨p, r', hgo, hgrows, hnumber⟩ := r.go_grows (some n) turns
    obtain ⟨hmax, hlimit⟩ := Run.attempts_bounded n turns (r := r) rfl
    rw [show e = (p, r') from hgo]
    refine ⟨hmax, hlimit, hgrows.output, fun m hm => ?_⟩
    rw [hnumber m hm]
    exact hgrows.emitted_le rfl
  · intro collector settings producer plan span w
    unfold tries
    rcases hstart : start settings producer schedule plan span.opening w with ⟨p, session, r⟩
    cases p with
    | goesOn =>
      have begun := start_begun hstart
      obtain ⟨hmax, hlimit⟩ := Run.attempts_bounded n turns begun.emitted_eq
      rw [begun.stop_eq, Stop.ofSchedule_isSet] at hlimit
      refine ⟨hmax, by simpa using hlimit, ?_⟩
      simpa using opened_adds collector (some n) turns hstart
    | returned m =>
      -- a start does not return
      obtain ⟨f, v, hp, -⟩ := start_ended hstart nofun
      cases hp
    | failed f =>
      refine ⟨Nat.zero_le _, by simp, ?_⟩
      simpa using refused_adds collector (some n) turns hstart

theorem run_bounded_oneLine :
    let e := run keeper freshFile steady .never .none (some (1 : Nat)) morning 1 bare
    e.1 = .returned 1 ∧
      tries freshFile steady .never .none (some (1 : Nat)) morning.opening 1 bare = 1 ∧
      Adds 1 keeper freshFile morning true bare e := by
  obtain ⟨-, -, adds⟩ := (run_bounded 1 1 .never).2 keeper freshFile steady .none morning bare
  have hopened : (start freshFile steady .never .none morning.opening bare).1 = .goesOn := by
    decide +kernel
  have htries : tries freshFile steady .never .none (some (1 : Nat)) morning.opening 1 bare = 1 := by
    decide +kernel
  rw [htries, decide_eq_true hopened] at adds
  exact ⟨by decide +kernel, htries, adds⟩

/-- With a limit of 0 a sample is added to the file and to the standard output, and returned. -/
theorem run_exceeds :
    let e := run keeper freshFile steady .never .none (some (0 : Nat)) morning 1 bare
    e.1 = .returned 1 ∧ e.2.world.stdout.text = shown [dawnRecord.line] ∧
      e.2.world.disk.read freshFile.outputPath = .ok (written [dawnRecord.line]) ∧
      ¬Adds 0 keeper freshFile morning true bare e := by
  intro e
  have hreturned : e.1 = .returned 1 := by decide +kernel
  refine ⟨hreturned, by decide +kernel, by decide +kernel, fun adds => ?_⟩
  exact absurd (adds.returned 1 hreturned) (by decide)

end Session

end HostTelemetry
