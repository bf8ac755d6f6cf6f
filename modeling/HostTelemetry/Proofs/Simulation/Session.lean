import HostTelemetry.Proofs.Disk.Gain
import HostTelemetry.Proofs.Metric.Totals
import HostTelemetry.Proofs.Simulation.Books
import HostTelemetry.Proofs.Simulation.Start

/-!
# Sessions

Opening a session leaves the file of the run with its old bytes, or empty, and the position at its
end. Closing one changes neither that file nor the outlet, since counters go to another file.
Between them the run keeps its books, so all of them agree however it ends.
-/

set_option autoImplicit false

namespace HostTelemetry.Session

open Sink (Fate keptAll tapeAfter written shown bytesOf)

variable {γ : Type} [Producer γ]

theorem acquireBook_frame {settings : Settings} {now : Moment} {w v : World}
    {book : Option MeterBook} (h : acquireBook settings now w = (.ok book, v)) :
    v.stdout = w.stdout ∧ w.disk.Extends v.disk ∧
      (∀ b, book = some b → settings.metricsPath = some b.file.path ∧
        ∃ id, v.disk.file? b.file.path = some id) ∧
      ∀ l, (∀ m id, settings.metricsPath = some m → v.disk.file? m = some id →
        v.disk.node? l ≠ some (.file id)) → v.disk.held l = w.disk.held l := by
  cases acquires_of_eq h with
  | unasked path =>
    rw [path]
    exact ⟨rfl, .refl _, by simp, fun _ _ => rfl⟩
  | @acquired m file d path made =>
    obtain ⟨hpath, e, id, hpaves, hd⟩ := MetricFile.acquire_ok made
    have hfolder := hpaves.furnishes
    obtain ⟨k, -, hk, hnode, hextends, -, -⟩ := Disk.acquire_frame hd
    have hfile : d.file? m = some id := Disk.file?_of_node hk hnode
    refine ⟨rfl, hfolder.extends_.trans hextends, fun b hb => ?_, fun l hapart => ?_⟩
    · obtain rfl := Option.some.inj hb
      rw [hpath]
      exact ⟨path, id, hfile⟩
    · exact (Disk.acquire_held hd (hapart m id path hfile)).trans (hfolder.held_eq l)

/-- On a disk the counters go to no file, or to another one than the lines. -/
def Apart (settings : Settings) (d : Disk) : Prop :=
  ∀ m, settings.metricsPath = some m → d.file? m ≠ d.file? settings.outputPath

structure Opened (settings : Settings) (producer : γ) (w : World) (session : Session) (r : Run γ)
    (h : Handle) (l : Location) : Prop where
  file : r.simulation.sink.file = some h
  opened : h.closed = false
  path_eq : r.simulation.sink.path = settings.outputPath
  located : r.world.disk.locate settings.outputPath = .ok l
  node : r.world.disk.node? l = some (.file h.id)
  produces : r.simulation.producer = producer
  meter_eq : r.simulation.meter = settings.metricsPath.map fun _ => .own
  stdout_eq : r.world.stdout = w.stdout
  book : ∀ b, session.book = some b →
    ∃ id, id ≠ h.id ∧ r.world.disk.file? b.file.path = some id
  books : r.Books h (if settings.append then w.disk.held l else []) [] none r

theorem start_opened {settings : Settings} {producer : γ} {schedule : Schedule} {plan : Plan}
    {now : Moment} {w : World} {session : Session} {r : Run γ}
    (opened : start settings producer schedule plan now w = (.goesOn, session, r))
    (apart : Apart settings r.world.disk) : ∃ h l, Opened settings producer w session r h l := by
  cases starts_of_eq opened with | @opened book v v' s hb hs
  obtain ⟨hstdout, hextends, hbook, hheld⟩ := acquireBook_frame hb
  obtain ⟨h, l, rfl, hextends', hbefore, happend, hopen, hstdout', hl, hn, htape⟩ :=
    Sink.acquire_opened hs
  have hfile : v'.disk.file? settings.outputPath = some h.id := Disk.file?_of_node hl hn
  have hother : ∀ m id, settings.metricsPath = some m → v.disk.file? m = some id → id ≠ h.id := by
    rintro m id hm hid rfl
    apply apart m hm
    exact (Disk.file?_extends hextends' m _ hid).trans hfile.symm
  have hbase : v.disk.base settings.outputPath settings.append =
      if settings.append then w.disk.held l else [] := by
    rw [Disk.base_of_locate _ hbefore, hheld l]
    intro m id hm hid hnode
    have hsame := hextends' l _ hnode
    rw [hn] at hsame
    apply hother m id hm hid
    simpa using hsame.symm
  have hposition := congrArg Tape.position htape
  have hbytes : v'.disk.content h.id = v.disk.base settings.outputPath settings.append :=
    congrArg Tape.bytes htape
  have hsettled := Disk.setContent_self v'.disk h.id
  rw [hbytes, hbase] at hsettled
  rw [hbase] at hposition
  apply Exists.intro { h with plan := plan }
  apply Exists.intro l
  constructor
  case file => rfl
  case opened => exact hopen
  case path_eq => rfl
  case located => exact hl
  case node => exact hn
  case produces => rfl
  case meter_eq => rfl
  case stdout_eq => exact hstdout'.trans hstdout
  case book =>
    intro b hb
    obtain ⟨hm, id, hid⟩ := hbook b hb
    exact ⟨id, hother _ id hm hid, Disk.file?_extends hextends' _ id hid⟩
  case books =>
    constructor
    case file => exact ⟨{ h with plan := plan }, rfl, .refl _, hposition, hsettled.symm⟩
    case path_eq => rfl
    case outlet_eq => rfl
    case heard => simp [Run.ofSchedule, shown, Run.echoed]
    case counted => rfl
    case emitted_eq => rfl
    case meter_eq =>
      dsimp only [Run.ofSchedule, simulationOf]
      cases settings.metricsPath <;> rfl
    case produced => exact fun _ => rfl
    case encoded => simp

theorem leave_frame (inFlight : Bool) (s : Sink) (w : World) (h : Handle)
    (hfile : s.file = some h) :
    ∃ answer w', s.leave inFlight w = (answer, { s with file := none }, w') ∧
      w'.disk = w.disk ∧ w'.stdout = w.stdout := by
  simp only [Sink.leave, Sink.release, hfile]
  cases h.close with
  | ok u => exact ⟨.ok (), w, rfl, rfl, rfl⟩
  | error f =>
    dsimp only
    split
    · exact ⟨.ok (), _, rfl, rfl, rfl⟩
    · exact ⟨_, w, rfl, rfl, rfl⟩

theorem exportCounters_frame (collector : Collector) (session : Session) (now : Moment)
    (meter : Option Meter) (w : World) (out : Nat) (hbook : ∀ b, session.book = some b →
      ∃ id, id ≠ out ∧ w.disk.file? b.file.path = some id) :
    let v := session.exportCounters collector now meter w
    v.stdout = w.stdout ∧ w.disk.Extends v.disk ∧ v.disk.content out = w.disk.content out := by
  unfold exportCounters
  rcases hb : session.book with _ | b
  · exact ⟨rfl, .refl _, rfl⟩
  obtain ⟨id, hid, hfile⟩ := hbook b hb
  cases meter with
  | none => exact ⟨rfl, .refl _, rfl⟩
  | some m =>
    dsimp only
    split
    · exact ⟨rfl, .refl _, rfl⟩
    · have hout : out ≠ id := fun h => hid h.symm
      simp only [MetricFile.write, Disk.acquire_file hfile]
      exact ⟨trivial, w.disk.setContent_extends _ _, Disk.setContent_other _ _ _ _ hout⟩

omit [Producer γ] in
theorem close_frame (collector : Collector) (session : Session) (now : Moment) (p : Progress)
    (r : Run γ) (h : Handle) (out : Nat) (hfile : r.simulation.sink.file = some h)
    (hbook : ∀ b, session.book = some b →
      ∃ id, id ≠ out ∧ r.world.disk.file? b.file.path = some id) :
    let e := session.close collector now p r
    e.2.simulation = { r.simulation with sink := { r.simulation.sink with file := none } } ∧
      e.2.emitted = r.emitted ∧ e.2.world.stdout = r.world.stdout ∧
      r.world.disk.Extends e.2.world.disk ∧
      e.2.world.disk.content out = r.world.disk.content out ∧
      (e.1 = p ∨ ∃ f, e.1 = .failed f) := by
  have hreleased : ∃ p' r', release p r = (p', r') ∧
      r'.simulation = { r.simulation with sink := { r.simulation.sink with file := none } } ∧
      r'.emitted = r.emitted ∧ r'.world.stdout = r.world.stdout ∧
      r'.world.disk = r.world.disk ∧ (p' = p ∨ ∃ f, p' = .failed f) := by
    unfold release
    obtain ⟨answer, w', hleave, hdisk, hstdout⟩ :=
      leave_frame p.isFailed r.simulation.sink r.world h hfile
    rw [hleave]
    cases answer with
    | ok u => exact ⟨p, _, rfl, rfl, rfl, hstdout, hdisk, Or.inl rfl⟩
    | error f => exact ⟨.failed f, _, rfl, rfl, rfl, hstdout, hdisk, Or.inr ⟨f, rfl⟩⟩
  obtain ⟨p', r', hrelease, hsim, hemitted, hstdout, hdisk, hp⟩ := hreleased
  have hexport := exportCounters_frame collector session now r'.simulation.meter r'.world out
    (by rw [hdisk]; exact hbook)
  unfold close
  rw [hrelease]
  dsimp only at hexport ⊢
  rw [hstdout, hdisk] at hexport
  obtain ⟨hout, hextends, hcontent⟩ := hexport
  exact ⟨hsim, hemitted, hout, hextends, hcontent, hp⟩

/-- What is left of a session that is over: lines that were kept, and perhaps a last one that was
lost. -/
structure Settled (settings : Settings) (producer : γ) (base : Bytes) (before : Text)
    (lines : List Text) (lost : Option (Text × Fate)) (e : Progress × Run γ) : Prop where
  closed : e.2.simulation.sink.isClosed
  file : ∃ append, e.2.world.disk.read settings.outputPath =
    .ok (tapeAfter append (keptAll lines ++ lost.toList) ⟨base, base.length⟩).bytes
  heard : e.2.world.stdout.text = before ++ shown lines ++ Run.echoed lost
  emitted_eq : e.2.emitted = lines.length
  counted : e.2.simulation.sink.bytesWritten = (written lines).length
  meter_eq : e.2.simulation.meter =
    settings.metricsPath.map fun _ => .counting settings.outputPath.toText lines
  encoded : ∀ k line, lines[k]? = some line → Producer.lineAt producer k = .ok line
  failed : ∀ a, lost = some a → a.2 ≠ .kept ∧ ∃ f, e.1 = .failed f
  number : ∀ n, e.1 = .returned n → n = lines.length

theorem run_settled {settings : Settings} {producer : γ} {schedule : Schedule} {plan : Plan}
    {span : Span} {w : World} {session : Session} {r : Run γ} (collector : Collector)
    (limit : Option Int) (turns : Nat)
    (opened : start settings producer schedule plan span.opening w = (.goesOn, session, r))
    (apart : Apart settings r.world.disk) :
    ∃ l lines lost, r.world.disk.locate settings.outputPath = .ok l ∧
      r.attempts limit turns = keptAll lines ++ lost.toList ∧
      Settled settings producer (if settings.append then w.disk.held l else []) w.stdout.text
        lines lost (run collector settings producer schedule plan limit span turns w) := by
  obtain ⟨h, l, start⟩ := start_opened opened apart
  obtain ⟨p, r', lines, lost, hgo, hbooks, htried, hends⟩ :=
    r.go_books limit turns start.opened start.books
  rw [List.nil_append] at hbooks
  obtain ⟨h', hfile, hleft⟩ := hbooks.file
  have hextends : r.world.disk.Extends r'.world.disk := by
    rw [hleft.disk]
    exact r.world.disk.setContent_extends _ _
  obtain ⟨hsim, hemitted, hstdout, hextends', hcontent, hp⟩ :=
    close_frame collector session span.closing p r' h' h.id hfile fun b hb => by
      obtain ⟨id, hid, hb⟩ := start.book b hb
      exact ⟨id, hid, Disk.file?_extends hextends _ id hb⟩
  have hall := hextends.trans hextends'
  refine ⟨l, lines, lost, start.located, htried, ?_⟩
  rw [run_started collector limit turns opened, hgo]
  constructor
  case closed => rw [hsim]; rfl
  case file =>
    refine ⟨h.append, ?_⟩
    rw [Disk.read_of_node (Disk.locate_extends hall _ l start.located) (hall l _ start.node),
      hcontent, hleft.disk, Disk.setContent_content]
  case heard => rw [hstdout, hbooks.heard, start.stdout_eq]
  case emitted_eq => rw [hemitted, hbooks.emitted_eq]
  case counted => rw [hsim]; exact hbooks.counted
  case meter_eq =>
    rw [hsim]
    dsimp only
    rw [hbooks.meter_eq, start.meter_eq, start.path_eq, Option.map_map]
    rfl
  case encoded => rw [← start.produces]; exact hbooks.encoded
  case failed =>
    intro a ha
    obtain ⟨hkept, f, hf⟩ := hends.failed a ha
    rcases hp with hp | hp
    · exact ⟨hkept, f, hp.trans hf⟩
    · exact ⟨hkept, hp⟩
  case number =>
    intro n hn
    rcases hp with hp | ⟨f, hp⟩
    · rw [hends.number n (hp.symm.trans hn), hbooks.emitted_eq]
    · rw [hp] at hn
      simp at hn

/-- The bytes that a lost line leaves behind the kept ones. -/
theorem tapeAfter_lost (append : Bool) (lines : List Text) (line : Text) (fate : Fate)
    (base : Bytes) :
    (tapeAfter append (keptAll lines ++ [(line, fate)]) ⟨base, base.length⟩).bytes =
      match fate with
      | .untried | .cut _ true => base ++ written lines
      | .cut taken false => base ++ written lines ++ (bytesOf line).take taken
      | _ => base ++ written (lines ++ [line]) := by
  rw [Sink.tapeAfter_append, Sink.tapeAfter_kept]
  simp only [tapeAfter]
  cases fate with
  | untried => rfl
  | cut taken undone =>
    cases undone with
    | false => simp only [Fate.tape, Bool.false_eq_true, if_false, Tape.put_at_end]
    | true => simp only [Fate.tape, if_true, Tape.put_cut_at_end]
  | _ =>
    simp only [Fate.tape, Tape.put_at_end, Sink.written_append]
    rw [List.append_assoc]

/-- However a session ends, the sink is closed, and file, output and counters hold the same lines.
A line that was lost before it was brought to the disk is in neither, one that was lost while it
was is in the file, and one that was lost after it was echoed is in both. -/
theorem run_agrees {settings : Settings} {producer : γ} {schedule : Schedule} {plan : Plan}
    {span : Span} {w : World} {session : Session} {r : Run γ} (collector : Collector)
    (limit : Option Int) (turns : Nat)
    (opened : start settings producer schedule plan span.opening w = (.goesOn, session, r))
    (apart : Apart settings r.world.disk) :
    ∃ (l : Location) (lines : List Text) (lost : Option (Text × Fate)),
      r.world.disk.locate settings.outputPath = .ok l ∧
      r.attempts limit turns = keptAll lines ++ lost.toList ∧
      (∀ k line, lines[k]? = some line → Producer.lineAt producer k = .ok line) ∧
      let e := run collector settings producer schedule plan limit span turns w
      let base := if settings.append then w.disk.held l else []
      let file := e.2.world.disk.read settings.outputPath
      let stream := e.2.world.stdout.text
      e.2.simulation.sink.isClosed ∧ e.2.emitted = lines.length ∧
      e.2.simulation.sink.bytesWritten = (written lines).length ∧
      e.2.simulation.meter =
        settings.metricsPath.map (fun _ => .counting settings.outputPath.toText lines) ∧
      match lost with
      | none =>
        file = .ok (base ++ written lines) ∧ stream = w.stdout.text ++ shown lines ∧
          ∀ n, e.1 = .returned n → n = lines.length
      | some (line, fate) =>
        (∃ f, e.1 = .failed f) ∧
          match fate with
          | .untried | .cut _ true =>
            file = .ok (base ++ written lines) ∧ stream = w.stdout.text ++ shown lines
          | .cut taken false =>
            file = .ok (base ++ written lines ++ (bytesOf line).take taken) ∧
              stream = w.stdout.text ++ shown lines
          | .unsynced | .unheard =>
            file = .ok (base ++ written (lines ++ [line])) ∧
              stream = w.stdout.text ++ shown lines
          | .unflushed =>
            file = .ok (base ++ written (lines ++ [line])) ∧
              stream = w.stdout.text ++ shown (lines ++ [line])
          | .kept => False := by
  obtain ⟨l, lines, lost, hl, htried, settled⟩ := run_settled collector limit turns opened apart
  obtain ⟨append, hfile⟩ := settled.file
  have hheard := settled.heard
  refine ⟨l, lines, lost, hl, htried, settled.encoded, settled.closed, settled.emitted_eq,
    settled.counted, settled.meter_eq, ?_⟩
  rcases lost with _ | ⟨line, fate⟩
  · rw [Option.toList_none, List.append_nil, Sink.tapeAfter_kept] at hfile
    rw [Run.echoed, List.append_nil] at hheard
    exact ⟨hfile, hheard, settled.number⟩
  · obtain ⟨hkept, hfailed⟩ := settled.failed _ rfl
    rw [Option.toList_some, tapeAfter_lost] at hfile
    constructor
    · exact hfailed
    · cases fate with
      | kept => exact hkept rfl
      | cut taken undone =>
        cases undone <;> exact ⟨hfile, by simpa [Run.echoed, Fate.isHeard] using hheard⟩
      | unflushed =>
        exact ⟨hfile, by simpa [Run.echoed, Fate.isHeard, Sink.shown_append] using hheard⟩
      | _ => exact ⟨hfile, by simpa [Run.echoed, Fate.isHeard] using hheard⟩

def bothFiles : Settings := ⟨⟨0, [lit "f"]⟩, true, false, some ⟨0, [lit "m"]⟩, .info⟩

def dawn : Moment := ⟨⟨⟨1, 1, 1, by decide, by decide, by decide⟩, Stamp.midnight, .fixed .utc⟩, 0⟩

def noon : Moment :=
  ⟨⟨dawn.localTime.date, { Stamp.midnight with hour := 12, hour_lt := by decide }, .fixed .utc⟩,
    43200000000000⟩

def morning : Span := ⟨dawn, noon⟩

def keeper : Collector := .totals [(lit "telemetry.sdk.name", lit "opentelemetry")]

theorem keeper_lawful : keeper.Lawful := by
  apply Collector.totals_lawful
  constructor
  · simp
  · unfold Text.IsPlain CodePoint.IsHighSurrogate
    decide

def bare : World := ⟨.empty, .ofKind .unicode, []⟩

def full : Plan := ⟨[], [.fails (.system 28 none)], [], [], []⟩

theorem acquireBook_bare : acquireBook bothFiles dawn bare =
    (.ok (some ⟨⟨⟨0, [lit "m"]⟩⟩, 0⟩),
      { bare with disk := Disk.empty.create (Disk.here ++ [[109]]) [] }) := by
  simp only [acquireBook, bothFiles, bare, MetricFile.acquire_empty]
  rfl

theorem run_agrees_full :
    ∃ (session : Session) (r : Run (Generator AnySource AnyClock)),
      start bothFiles ⟨.ofList [], .still dawn.localTime, false⟩ .never full dawn bare =
        (.goesOn, session, r) ∧
      Apart bothFiles r.world.disk ∧
      (run keeper bothFiles
        (⟨.ofList [], .still dawn.localTime, false⟩ : Generator AnySource AnyClock)
        .never full (some 3) morning 3 bare).2.simulation.sink.isClosed := by
  obtain ⟨session, r, hstart, hdisk⟩ : ∃ (session : Session)
      (r : Run (Generator AnySource AnyClock)),
      start bothFiles ⟨.ofList [], .still dawn.localTime, false⟩ .never full dawn bare =
        (.goesOn, session, r) ∧
      r.world.disk = (Disk.empty.create (Disk.here ++ [[109]]) []).create
        (Disk.here ++ [[102]]) [] := by
    unfold start
    rw [acquireBook_bare]
    exact ⟨_, _, rfl, rfl⟩
  have hapart : Apart bothFiles r.world.disk := by
    intro m hm
    obtain rfl := Option.some.inj hm
    rw [hdisk]
    decide
  have hopened : start bothFiles (⟨.ofList [], .still dawn.localTime, false⟩ :
      Generator AnySource AnyClock) .never full morning.opening bare = (.goesOn, session, r) :=
    hstart
  obtain ⟨l, lines, lost, -, -, -, hclosed, -⟩ := run_agrees keeper (some 3) 3 hopened hapart
  exact ⟨session, r, hstart, hapart, hclosed⟩

end HostTelemetry.Session
