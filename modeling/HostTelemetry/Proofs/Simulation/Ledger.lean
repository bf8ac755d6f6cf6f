import HostTelemetry.Proofs.Disk.Gain
import HostTelemetry.Proofs.Metric.Total
import HostTelemetry.Proofs.Simulation.Replay
import HostTelemetry.Proofs.Simulation.Unopened

/-!
# The ledger of many sessions

Sessions may share a metrics file. Each of them leaves the file as it was, or appends its account:
how many samples its output took, and how many bytes they came to. So the file is a ledger of all
the sessions, and its totals are those of all the steps that were completed.
-/

set_option autoImplicit false

namespace HostTelemetry

open Sink (Fate keptAll bytesOf written)

namespace Simulation

variable {γ : Type} [Producer γ]

/-- The number of bytes that the output answers a step with, if it takes its line. -/
def taken (s : Simulation γ) (w : World) : Option Nat :=
  match (Producer.produce s.producer).1.bind Sample.encode with
  | .error _ => none
  | .ok line => (s.sink.emit line w).1.toOption

end Simulation

def keptSize (a : Text × Fate) : Option Nat :=
  if a.2 = .kept then some (bytesOf a.1).length else none

theorem keptSize_all (lines : List Text) :
    (keptAll lines).filterMap keptSize = lines.map fun line => (bytesOf line).length := by
  induction lines with
  | nil => rfl
  | cons line lines ih =>
    have hline : keptSize (line, .kept) = some (bytesOf line).length := if_pos rfl
    rw [keptAll, List.map_cons, List.filterMap_cons_some hline, ← keptAll, ih]
    rfl

theorem filterMap_cons (a : Text × Fate) (as : List (Text × Fate)) :
    (a :: as).filterMap keptSize = (keptSize a).toList ++ as.filterMap keptSize := by
  cases h : keptSize a with
  | none => simp [h]
  | some n => simp [h]

namespace Run

variable {γ : Type} [Producer γ]

def sizes (limit : Option Int) : (turns : Nat) → Run γ → List Nat
  | 0, _ => []
  | n + 1, r =>
    if r.stop.isSet then []
    else (r.simulation.taken r.world).toList ++
      match r.turn limit with
      | (.goesOn, r) => sizes limit n r
      | _ => []

theorem taken_attempt {r r' : Run γ} {h : Handle} {base : Bytes} {lines : List Text}
    (hopen : h.closed = false) (books : Books r h base lines none r') :
    r'.simulation.taken r'.world = keptSize (r'.simulation.attempt r'.world) := by
  unfold Simulation.taken Simulation.attempt
  cases hmade : (Producer.produce r'.simulation.producer).1.bind Sample.encode with
  | error f => rfl
  | ok line =>
    obtain ⟨answer, sink, w, hemit, -, hanswer⟩ := books.give hopen line
    dsimp only
    rw [hemit]
    cases answer with
    | error f => exact (if_neg hanswer).symm
    | ok size =>
      obtain ⟨hkept, rfl⟩ := hanswer
      exact (if_pos hkept).symm

theorem sizes_attempts {r r' : Run γ} {h : Handle} {base : Bytes} {lines : List Text}
    (limit : Option Int) (turns : Nat) (hopen : h.closed = false)
    (books : Books r h base lines none r') :
    r'.sizes limit turns = (r'.attempts limit turns).filterMap keptSize := by
  induction turns generalizing r' lines with
  | zero => rfl
  | succ turns ih =>
    by_cases hstop : r'.stop.isSet
    · simp [sizes, attempts, hstop]
    · obtain ⟨p, r1, more, lost, hturn, hbooks, -, hends⟩ :=
        turn_books limit hopen (by simpa using hstop) books
      have htaken := taken_attempt hopen books
      rw [sizes, attempts, if_neg hstop, if_neg hstop, hturn, htaken, filterMap_cons]
      cases p with
      | goesOn =>
        obtain rfl : lost = none := by
          rcases hl : lost with _ | a
          · rfl
          · obtain ⟨f, hf⟩ := (hends.failed a hl).2
            cases hf
        dsimp only
        rw [ih hbooks]
      | returned n => rfl
      | failed f => rfl

/-- What ended a run has no size: the answers are those to the lines before it. -/
theorem sizes_kept {r r' r'' : Run γ} {h : Handle} {base : Bytes} {lines kept : List Text}
    {lost : Option (Text × Fate)} {p : Progress} {limit : Option Int} {turns : Nat}
    (hopen : h.closed = false) (books : Books r h base lines none r')
    (tried : r'.attempts limit turns = keptAll kept ++ lost.toList) (ends : Ends p lost r'') :
    r'.sizes limit turns = kept.map fun line => (bytesOf line).length := by
  have hlost : lost.toList.filterMap keptSize = [] := by
    rcases hl : lost with _ | a
    · rfl
    · have hnone : keptSize a = none := if_neg (ends.failed a hl).1
      simp [hnone]
  rw [sizes_attempts limit turns hopen books, tried, List.filterMap_append, keptSize_all, hlost,
    List.append_nil]

end Run

namespace Session

variable {γ : Type} {settings : Settings} {producer : γ} {schedule : Schedule} {plan : Plan}
  {collector : Collector} {now : Moment} {w : World} {session : Session} {r : Run γ}

theorem acquireBook_numbered (settings : Settings) (now : Moment) (numbered : w.disk.Numbered) :
    (acquireBook settings now w).2.disk.Numbered := by
  rw [acquireBook_world]
  cases settings.metricsPath with
  | none => exact numbered
  | some m => exact MetricFile.acquire_numbered m numbered

theorem acquireBook_held (settings : Settings) (now : Moment) (numbered : w.disk.Numbered)
    (l : Location) : (acquireBook settings now w).2.disk.held l = w.disk.held l := by
  obtain ⟨hnone, hsome⟩ := acquireBook_gains numbered settings now
  cases hm : settings.metricsPath with
  | none => rw [hnone hm]
  | some m => exact (hsome m hm).held_eq l

theorem acquireBook_ok {book : Option MeterBook} {v : World} {m : Path}
    (hm : settings.metricsPath = some m) (h : acquireBook settings now w = (.ok book, v)) :
    book = some ⟨⟨m⟩, now.nanoseconds⟩ ∧
      ∃ k l, v.disk.locate m = .ok l ∧ v.disk.node? l = some (.file k) := by
  cases acquires_of_eq h with
  | unasked path => cases hm.symm.trans path
  | @acquired m' file d path made =>
    obtain rfl := Option.some.inj (hm.symm.trans path)
    obtain ⟨hp, e, k, -, hfile⟩ := MetricFile.acquire_ok made
    obtain ⟨l, -, hl, hn, -⟩ := Disk.acquire_frame hfile
    obtain ⟨path⟩ := file
    obtain rfl : path = m := hp
    exact ⟨rfl, k, l, hl, hn⟩

structure Booked (now : Moment) (w : World) (session : Session) (r : Run γ) (h : Handle)
    (m : Path) (k : Nat) (l : Location) : Prop where
  book : session.book = some ⟨⟨m⟩, now.nanoseconds⟩
  located : r.world.disk.locate m = .ok l
  node : r.world.disk.node? l = some (.file k)
  other : k ≠ h.id
  held : r.world.disk.held l = w.disk.held l
  numbered : r.world.disk.Numbered

theorem start_booked {h : Handle} {out : Location} {m : Path} (numbered : w.disk.Numbered)
    (hm : settings.metricsPath = some m)
    (started : start settings producer schedule plan now w = (.goesOn, session, r))
    (apart : Apart settings r.world.disk)
    (located : r.world.disk.locate settings.outputPath = .ok out)
    (node : r.world.disk.node? out = some (.file h.id)) :
    ∃ k l, Booked now w session r h m k l := by
  have hheld := acquireBook_held settings now numbered
  have hnumbered := acquireBook_numbered settings now numbered
  cases starts_of_eq started with | @opened book v v' s hb hs
  rw [hb] at hheld hnumbered
  dsimp only [Run.ofSchedule] at apart located node
  obtain ⟨hbook, k, l, hl, hn⟩ := acquireBook_ok hm hb
  obtain ⟨i, hacquire⟩ := Sink.acquire_disk hs
  obtain ⟨out', -, hout, hi, hextends, -⟩ := Disk.acquire_frame hacquire
  obtain rfl : out = out' := Except.ok.inj (located.symm.trans hout)
  obtain rfl : h.id = i := by simpa using node.symm.trans hi
  have hl' := Disk.locate_extends hextends m l hl
  have hn' := hextends l _ hn
  have hother : k ≠ h.id := by
    rintro rfl
    apply apart m hm
    rw [Disk.file?_of_node hl' hn', Disk.file?_of_node located node]
  refine ⟨k, l, hbook, hl', hn', hother, ?_, Disk.acquire_numbered hnumbered hacquire⟩
  have hsame : v'.disk.held l = v.disk.held l := by
    apply Disk.acquire_held hacquire
    rw [hn']
    simpa using hother
  exact hsame.trans (hheld l)

theorem exportCounters_prints {a : Account} {book : MeterBook} {k : Nat} {v : World}
    {lines : List Text} (lawful : collector.Lawful) (printable : a.Printable)
    (covers : a.Covers collector book.start now.nanoseconds lines)
    (hbook : session.book = some book) (hmoment : a.moment = now.localTime.render (cp 'T') .nonzero)
    (hfile : v.disk.file? book.file.path = some k) :
    (session.exportCounters collector now (some (.counting a.output lines)) v).disk =
      v.disk.setContent k (v.disk.content k ++ a.print) := by
  have hlines := Account.report_lines lawful printable covers
  unfold exportCounters
  rw [hbook]
  dsimp only
  generalize (Meter.counting a.output lines).report collector book.start now.nanoseconds = reports
    at hlines ⊢
  cases reports with
  | nil =>
    have hnone : a.entries = [] := by simpa [Report.lines] using hlines.symm
    have hprint : a.print = [] := by rw [Account.print, Account.text, hnone]; rfl
    rw [hprint, List.append_nil, Disk.setContent_self]
  | cons report reports =>
    dsimp only
    rw [MetricFile.write, Disk.acquire_file hfile, ← hmoment]
    dsimp only
    rw [hlines, Account.joined_ok]
    rfl

theorem close_prints {a : Account} {book : MeterBook} {h : Handle} {k : Nat} {lines : List Text}
    (p : Progress) (lawful : collector.Lawful) (printable : a.Printable)
    (covers : a.Covers collector book.start now.nanoseconds lines)
    (hbook : session.book = some book) (hmoment : a.moment = now.localTime.render (cp 'T') .nonzero)
    (hfile : r.simulation.sink.file = some h)
    (hmeter : r.simulation.meter = some (.counting a.output lines))
    (hleads : r.world.disk.file? book.file.path = some k) :
    (session.close collector now p r).2.world.disk =
      r.world.disk.setContent k (r.world.disk.content k ++ a.print) := by
  obtain ⟨answer, v, hleave, hdisk, -⟩ := leave_frame p.isFailed r.simulation.sink r.world h hfile
  rw [← hdisk] at hleads
  have hprints := exportCounters_prints lawful printable covers hbook hmoment hleads
  rw [hdisk] at hprints
  have hrelease : (release p r).2.world = v ∧
      (release p r).2.simulation.meter = r.simulation.meter := by
    unfold release
    rw [hleave]
    cases answer <;> exact ⟨rfl, rfl⟩
  unfold close
  obtain ⟨p', r', hreleased⟩ : ∃ p' r', release p r = (p', r') := ⟨_, _, rfl⟩
  rw [hreleased] at hrelease ⊢
  dsimp only at hrelease ⊢
  rw [hrelease.1, hrelease.2, hmeter]
  exact hprints

end Session

structure Job where
  γ : Type
  producing : Producer γ
  collector : Collector
  settings : Settings
  producer : γ
  schedule : Schedule
  plan : Plan
  limit : Option Int
  span : Span
  turns : Nat

namespace Job

instance (j : Job) : Producer j.γ := j.producing

def start (j : Job) (w : World) : Progress × Session × Run j.γ :=
  Session.start j.settings j.producer j.schedule j.plan j.span.opening w

def run (j : Job) (w : World) : Progress × Run j.γ :=
  Session.run j.collector j.settings j.producer j.schedule j.plan j.limit j.span j.turns w

def sizes (j : Job) (w : World) : List Nat :=
  match j.start w with
  | (.goesOn, _, r) => r.sizes j.limit j.turns
  | _ => []

def account (j : Job) (w : World) : Account :=
  let opening := j.span.opening.nanoseconds
  let closing := j.span.closing.nanoseconds
  ⟨j.settings.outputPath.toText, (j.sizes w).length, (j.sizes w).sum,
    j.collector.resource Meter.own.attributes, j.collector.start opening closing,
    j.collector.time opening closing, j.span.closing.localTime.render (cp 'T') .nonzero⟩

/-- Counts and lines go to different files, and the counts are collected and can be printed. -/
structure Able (j : Job) (w : World) : Prop where
  lawful : j.collector.Lawful
  apart : ∀ session r, j.start w = (.goesOn, session, r) → Session.Apart j.settings r.world.disk
  points : ∀ c ∈ j.settings.outputPath.toText, c < 0x110000
  printable : (j.account w).Printable

theorem start_numbered {j : Job} {w : World} (numbered : w.disk.Numbered) :
    (j.start w).2.2.world.disk.Numbered ∧ (j.start w).2.2.emitted = 0 := by
  have hnumbered := Session.acquireBook_numbered j.settings j.span.opening numbered
  have hstarts := Session.start_starts j.settings j.producer j.schedule j.plan j.span.opening w
  unfold start
  generalize Session.start j.settings j.producer j.schedule j.plan j.span.opening w = e
    at hstarts ⊢
  cases hstarts with
  | bookless refused =>
    rw [refused] at hnumbered
    exact ⟨hnumbered, rfl⟩
  | fileless acquired refused =>
    rw [acquired] at hnumbered
    exact ⟨hnumbered, rfl⟩
  | opened acquired opens =>
    rw [acquired] at hnumbered
    obtain ⟨i, hacquire⟩ := Sink.acquire_disk opens
    exact ⟨Disk.acquire_numbered hnumbered hacquire, rfl⟩

theorem path_clean {d : Disk} {p : Path} {l : Location} (h : d.locate p = .ok l)
    (points : ∀ c ∈ p.toText, c < 0x110000) : Json.Clean p.toText := by
  have hstray : ∀ c ∈ p.toText, isStray c = false := by
    unfold Disk.locate at h
    rcases hnames : p.fileNames? with f | names
    · rw [hnames] at h
      cases h
    · unfold Path.fileNames? at hnames
      dsimp only at hnames
      split at hnames
      · cases hnames
      · rename_i hnone
        intro c hc
        simpa using List.dropWhile_eq_nil_iff.1 hnone c hc
  apply Json.clean_of_forall
  intro c hc
  refine ⟨points c hc, fun hhigh => ?_⟩
  have hbyte : isStray c = true := by
    have hlow := hhigh.1
    have hle := hhigh.2
    have hsurrogate : CodePoint.IsSurrogate c := ⟨hlow, Nat.le_trans hle (by decide)⟩
    have hnot : ¬(0xDC80 ≤ c) := fun hge => absurd (Nat.le_trans hge hle) (by decide)
    simp [isStray, hsurrogate, hnot]
  rw [hstray c hc] at hbyte
  cases hbyte

theorem moment_clean (now : Moment) : Json.Clean (now.localTime.render (cp 'T') .nonzero) :=
  Json.clean_of_visible ((Stamp.render_within .nonzero now.localTime).mono (by decide) (by decide))

theorem run_closes {j : Job} {w : World} {session : Session} {r r' : Run j.γ} {p : Progress}
    (started : j.start w = (.goesOn, session, r)) (went : r.go j.limit j.turns = (p, r')) :
    j.run w = session.close j.collector j.span.closing p r' := by
  rw [run, Session.run_started j.collector j.limit j.turns started, went]

theorem account_covers {j : Job} {w : World} {lines : List Text}
    (sizes : j.sizes w = lines.map fun line => (bytesOf line).length) :
    (j.account w).Covers j.collector j.span.opening.nanoseconds j.span.closing.nanoseconds
      lines := by
  constructor
  case samples => simp [account, sizes]
  case bytes =>
    rw [Sink.written_length, ← sizes]
    rfl
  all_goals rfl

theorem run_prints {j : Job} {w : World} {session : Session} {r : Run j.γ} {m : Path}
    (numbered : w.disk.Numbered) (able : j.Able w) (hm : j.settings.metricsPath = some m)
    (started : j.start w = (.goesOn, session, r)) :
    let after := (j.run w).2
    ∃ l, after.world.disk.locate m = .ok l ∧
      after.world.disk.held l = w.disk.held l ++ (j.account w).print ∧
      after.world.disk.Numbered ∧ after.emitted = (j.sizes w).length := by
  have hapart := able.apart session r started
  obtain ⟨h, out, opened⟩ := Session.start_opened started hapart
  obtain ⟨k, l, booked⟩ :=
    Session.start_booked numbered hm started hapart opened.located opened.node
  obtain ⟨p, r', lines, lost, hgo, hbooks, htried, hends⟩ :=
    r.go_books j.limit j.turns opened.opened opened.books
  rw [List.nil_append] at hbooks
  obtain ⟨h', hfile, hleft⟩ := hbooks.file
  have hsizes : j.sizes w = lines.map fun line => (bytesOf line).length := by
    rw [sizes, started]
    exact Run.sizes_kept opened.opened opened.books htried hends
  have hmeter : r'.simulation.meter = some (.counting (j.account w).output lines) := by
    rw [hbooks.meter_eq, opened.meter_eq, opened.path_eq, hm]
    rfl
  have hextends : r.world.disk.Extends r'.world.disk := by
    rw [hleft.disk]
    exact r.world.disk.setContent_extends _ _
  have hleads : r'.world.disk.file? m = some k :=
    Disk.file?_extends hextends m k (Disk.file?_of_node booked.located booked.node)
  have hclose := Session.close_prints p able.lawful able.printable (account_covers hsizes)
    booked.book rfl hfile hmeter hleads
  obtain ⟨-, hemitted, -⟩ := Session.close_frame j.collector session j.span.closing p r' h' h.id
    hfile fun b hb => by
    obtain rfl := Option.some.inj (booked.book.symm.trans hb)
    exact ⟨k, booked.other, hleads⟩
  have hrun := run_closes started hgo
  -- The samples went to another file, so this one is as it was found.
  have hcontent : r'.world.disk.content k = w.disk.held l := by
    rw [hleft.disk, Disk.setContent_other _ _ _ _ booked.other, ← booked.held,
      Disk.held_of_node booked.node]
  have hnode : (j.run w).2.world.disk.node? l = some (.file k) := by
    rw [hrun, hclose]
    exact hextends l _ booked.node
  refine ⟨l, ?_, ?_, ?_, ?_⟩
  · rw [hrun, hclose]
    exact Disk.locate_extends (hextends.trans (r'.world.disk.setContent_extends _ _)) m l
      booked.located
  · rw [Disk.held_of_node hnode, hrun, hclose, Disk.setContent_content, hcontent]
  · rw [hrun, hclose, hleft.disk]
    exact booked.numbered
  · rw [hrun, hemitted, hbooks.emitted_eq, hsizes, List.length_map]

structure Adds (j : Job) (w : World) (l : Location) : Prop where
  held : (j.run w).2.world.disk.held l = w.disk.held l ++ (j.account w).print
  numbered : (j.run w).2.world.disk.Numbered
  emitted : (j.run w).2.emitted = (j.sizes w).length
  legibly : (j.account w).Legibly
  attributed : ∀ kv ∈ Meter.own.attributes, kv ∈ (j.account w).resource

theorem own_proper : Meter.own.attributes.Proper := by
  constructor
  · decide
  · unfold Text.IsPlain CodePoint.IsHighSurrogate
    decide

theorem Able.attributed {j : Job} {w : World} (able : j.Able w) :
    ∀ kv ∈ Meter.own.attributes, kv ∈ (j.account w).resource := by
  have hvalues : ∀ kv ∈ Meter.own.attributes, kv.2 ≠ [] := by decide
  exact fun kv hkv => able.lawful.resource_keeps _ kv hkv (hvalues kv hkv)

theorem run_adds {j : Job} {w : World} {m : Path} {l : Location} (numbered : w.disk.Numbered)
    (able : j.Able w) (hm : j.settings.metricsPath = some m)
    (leads : ∀ k, (j.run w).2.world.disk.locate m = .ok k → k = l) : j.Adds w l := by
  rcases hstart : j.start w with ⟨p, session, r⟩
  by_cases hp : p = .goesOn
  · subst hp
    obtain ⟨k, hlocate, hheld, hnumbered, hemitted⟩ := run_prints numbered able hm hstart
    obtain rfl := leads k hlocate
    obtain ⟨h, out, opened⟩ := Session.start_opened hstart (able.apart session r hstart)
    have legible : (j.account w).Legible :=
      ⟨able.printable, path_clean opened.located able.points, moment_clean j.span.closing,
        able.lawful.resource_proper _ own_proper⟩
    exact ⟨hheld, hnumbered, hemitted, legible.legibly, able.attributed⟩
  · obtain ⟨hnumbered, hemitted⟩ := start_numbered (j := j) numbered
    obtain ⟨hrun, hunopened⟩ :=
      Session.run_unopened able.lawful.idle j.limit j.turns numbered hstart hp
    rw [hstart] at hnumbered hemitted
    have hsizes : j.sizes w = [] := by
      rw [sizes, hstart]
      cases p with
      | goesOn => exact absurd rfl hp
      | returned n => rfl
      | failed f => rfl
    have hentries : (j.account w).entries = [] := by
      rw [Account.entries, account, hsizes]
      rfl
    have hprint : (j.account w).print = [] := by
      rw [Account.print, Account.text, hentries]
      rfl
    have hrun' : j.run w = (p, r) := hrun
    constructor
    case held =>
      rw [hrun', hprint, List.append_nil]
      exact (hunopened.gains m hm).held_eq l
    case numbered =>
      rw [hrun']
      exact hnumbered
    case emitted =>
      rw [hrun', hsizes]
      exact hemitted
    case legibly =>
      intro e he
      rw [hentries] at he
      cases he
    case attributed => exact able.attributed

def history : List Job → World → World
  | [], w => w
  | j :: js, w => history js (j.run w).2.world

def accounts : List Job → World → List Account
  | [], _ => []
  | j :: js, w => j.account w :: accounts js (j.run w).2.world

def completed : List Job → World → List Nat
  | [], _ => []
  | j :: js, w => (j.run w).2.emitted :: completed js (j.run w).2.world

/-- The metrics path of every session leads to one place, if it leads anywhere. -/
def Shared (l : Location) : List Job → World → Prop
  | [], _ => True
  | j :: js, w => j.Able w ∧
    (∃ m, j.settings.metricsPath = some m ∧
      ∀ k, (j.run w).2.world.disk.locate m = .ok k → k = l) ∧
    Shared l js (j.run w).2.world

/-- Sessions that share a metrics file append an account each, of what the output has taken, in
lines that can be read and name the service; and the samples in the file come to the steps that were
completed. -/
theorem history_accounts {l : Location} {jobs : List Job} {w : World} (numbered : w.disk.Numbered)
    (shared : Shared l jobs w) :
    let before := w.disk.held l
    let after := (history jobs w).disk.held l
    after = before ++ (accounts jobs w).flatMap Account.print ∧
      (accounts jobs w).map Account.samples = completed jobs w ∧
      (∀ a ∈ accounts jobs w, a.Legibly ∧ ∀ kv ∈ Meter.own.attributes, kv ∈ a.resource) ∧
      (MetricFile.Whole before →
        MetricFile.total "hostsim.samples.emitted" after =
          MetricFile.total "hostsim.samples.emitted" before + (completed jobs w).sum) := by
  induction jobs generalizing w with
  | nil => simp [history, accounts, completed]
  | cons j js ih =>
    obtain ⟨able, ⟨m, hm, leads⟩, shared⟩ := shared
    have adds := run_adds numbered able hm leads
    obtain ⟨hheld, hsamples, hlegibly, htotal⟩ := ih adds.numbered shared
    rw [adds.held] at hheld htotal
    refine ⟨?_, ?_, ?_, ?_⟩
    · rw [history, hheld, accounts, List.flatMap_cons, List.append_assoc]
    · rw [accounts, completed, List.map_cons, hsamples, adds.emitted]
      rfl
    · intro a ha
      rcases List.mem_cons.1 ha with rfl | ha
      · exact ⟨adds.legibly, adds.attributed⟩
      · exact hlegibly a ha
    · intro whole
      have hone := Account.total_samples adds.legibly
      rw [history, htotal (Account.print_whole whole _), MetricFile.total_append _ whole, hone,
        completed, List.sum_cons, adds.emitted, account]
      push_cast
      ring

def ofPlan (plan : Plan) (limit : Nat) : Job :=
  ⟨_, inferInstance, Session.keeper, Session.bothFiles, Session.steady, .never, plan, some limit,
    Session.morning, limit⟩

def twice : List Job :=
  [.ofPlan .none 2, .ofPlan Session.full 3]

theorem ofPlan_able {plan : Plan} {limit : Nat} {w : World}
    (apart : ((ofPlan plan limit).start w).2.2.world.disk.file? ⟨0, [lit "m"]⟩ ≠
      ((ofPlan plan limit).start w).2.2.world.disk.file? ⟨0, [lit "f"]⟩)
    (printable : ((ofPlan plan limit).account w).Printable) : (ofPlan plan limit).Able w := by
  constructor
  case lawful => exact Session.keeper_lawful
  case apart =>
    intro session r hstart m hm
    obtain rfl := Option.some.inj hm
    rw [hstart] at apart
    exact apart
  case points =>
    show ∀ c ∈ Session.bothFiles.outputPath.toText, c < 0x110000
    decide
  case printable => exact printable

theorem leads_of_locate {d : Disk} {m : Path} {l : Location}
    (h : (d.locate m).toOption = some l) (k : Location) (hk : d.locate m = .ok k) : k = l := by
  rw [hk] at h
  exact Option.some.inj h

theorem history_accounts_twice :
    Session.bare.disk.Numbered ∧ Shared (Disk.here ++ [[109]]) twice Session.bare ∧
      completed twice Session.bare = [2, 0] ∧
      MetricFile.total "hostsim.samples.emitted"
        ((history twice Session.bare).disk.held (Disk.here ++ [[109]])) = 2 := by
  have hshared : Shared (Disk.here ++ [[109]]) twice Session.bare := by
    refine ⟨ofPlan_able (by decide +kernel) ⟨?_, ?_, ?_, ?_⟩,
      ⟨_, rfl, leads_of_locate (by decide +kernel)⟩,
      ofPlan_able (by decide +kernel) ⟨?_, ?_, ?_, ?_⟩,
      ⟨_, rfl, leads_of_locate (by decide +kernel)⟩, trivial⟩
    all_goals decide +kernel
  have hcompleted : completed twice Session.bare = [2, 0] := by decide +kernel
  have hfresh : Session.bare.disk.held (Disk.here ++ [[109]]) = [] := rfl
  obtain ⟨-, -, -, htotal⟩ := history_accounts Disk.empty_numbered hshared
  rw [hfresh, hcompleted] at htotal
  exact ⟨Disk.empty_numbered, hshared, hcompleted, htotal (Or.inl rfl)⟩

end Job

end HostTelemetry
