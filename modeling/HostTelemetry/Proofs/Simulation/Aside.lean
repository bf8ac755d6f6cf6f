import HostTelemetry.Proofs.Sink.Elsewhere
import HostTelemetry.Proofs.Simulation.Replay

/-!
# Counting on the side

A session that reports its counts and one that does not go in step: the same samples, the same
answers, the same waits. They end alike, with the same lines in the output file and on the standard
output, if acquiring the metrics file leaves the output path as it was.
-/

set_option autoImplicit false

namespace HostTelemetry

open Sink (bytesOf)

namespace Run

variable {γ : Type} {path : Path} {id : Nat} {r : Run γ}

structure Plain (path : Path) (id : Nat) (r : Run γ) : Prop where
  file : ∃ h, r.simulation.sink.file = some h ∧ h.id = id ∧ h.closed = false
  path_eq : r.simulation.sink.path = path
  leads : r.world.disk.file? path = some id
  meter_eq : r.simulation.meter = none

def counted (t : Site) (path : Path) (id : Nat) (lines : List Text) (r : Run γ) : Run γ :=
  ⟨⟨r.simulation.producer, t.sink r.simulation.sink, some (.counting path.toText lines)⟩,
    t.world id r.world, r.stop, r.emitted⟩

theorem Plain.same {r' : Run γ} (plain : Plain path id r) (hs : r'.simulation = r.simulation)
    (hd : r'.world.disk = r.world.disk) : Plain path id r' :=
  ⟨by rw [hs]; exact plain.file, by rw [hs, plain.path_eq], by rw [hd, plain.leads],
    by rw [hs, plain.meter_eq]⟩

variable [Producer γ]

theorem emit_counted (t : Site) (plain : Plain path id r) (lines : List Text) :
    Plain path id r.emit.2 ∧
      ∃ lines', (r.counted t path id lines).emit = (r.emit.1, r.emit.2.counted t path id lines') := by
  obtain ⟨⟨producer, sink, meter⟩, w, stop, n⟩ := r
  obtain ⟨⟨h, hfile, hid, hopen⟩, hpath, hleads, hmeter⟩ := plain
  obtain rfl : meter = none := hmeter
  dsimp only at hfile hpath hleads
  unfold emit Simulation.step counted
  dsimp only
  cases hmade : (Producer.produce producer).1.bind Sample.encode with
  | error f => exact ⟨⟨⟨h, hfile, hid, hopen⟩, hpath, hleads, rfl⟩, lines, rfl⟩
  | ok line =>
    obtain ⟨-, hmoved⟩ := Sink.emit_elsewhere t line hfile hid w
    obtain ⟨answer, sink', w', h', hemit, hfile', hleaves, hcounts⟩ :=
      Sink.emit_fate line h sink w hfile hopen
    have hplain : ∀ p v stop m, v.disk = w'.disk →
        Plain path id (⟨⟨p, sink', none⟩, v, stop, m⟩ : Run γ) := by
      intro p v stop m hv
      constructor
      case file =>
        exact ⟨h', hfile', hleaves.follows.id_eq.trans hid, hleaves.follows.closed_eq.trans hopen⟩
      case path_eq => exact hcounts.path_eq.trans hpath
      case leads =>
        dsimp only
        rw [hv, hleaves.disk]
        exact Disk.file?_extends (w.disk.setContent_extends _ _) _ id hleads
      case meter_eq => rfl
    dsimp only
    rw [hmoved, hemit]
    cases answer with
    | error f => exact ⟨hplain _ _ _ _ rfl, lines, rfl⟩
    | ok size =>
      obtain ⟨-, rfl⟩ := hcounts.answer
      have hcount := count_books lines line path.toText (some Meter.own)
        (⟨(Producer.produce producer).2, t.sink sink', some (.counting path.toText lines)⟩ :
          Simulation γ) (congrArg Path.toText (hcounts.path_eq.trans hpath)) rfl
      refine ⟨hplain _ _ _ _ rfl, lines ++ [line], ?_⟩
      dsimp only
      rw [hcount]
      rfl

theorem turn_counted (t : Site) (limit : Option Int) (plain : Plain path id r) (lines : List Text) :
    Plain path id (r.turn limit).2 ∧ ∃ lines', (r.counted t path id lines).turn limit =
      ((r.turn limit).1, (r.turn limit).2.counted t path id lines') := by
  obtain ⟨hplain, lines', hemit⟩ := emit_counted t plain lines
  have hstop : (r.counted t path id lines).stop = r.stop := rfl
  unfold turn
  rw [hstop, hemit]
  split
  · exact ⟨plain.same rfl rfl, lines, rfl⟩
  · rcases he : r.emit with ⟨_ | _, r'⟩
    · rw [he] at hplain
      exact ⟨hplain, lines', rfl⟩
    · rw [he] at hplain
      have hemitted : (r'.counted t path id lines').emitted = r'.emitted := rfl
      have hstop' : (r'.counted t path id lines').stop = r'.stop := rfl
      dsimp only
      rw [hemitted, hstop']
      split
      · exact ⟨hplain.same rfl rfl, lines', rfl⟩
      · rcases r'.stop.wait interval with ⟨_ | _, stop⟩
        · exact ⟨hplain.same rfl rfl, lines', rfl⟩
        · exact ⟨hplain.same rfl rfl, lines', rfl⟩

theorem go_counted (t : Site) (limit : Option Int) (turns : Nat) (plain : Plain path id r)
    (lines : List Text) :
    Plain path id (r.go limit turns).2 ∧ ∃ lines', (r.counted t path id lines).go limit turns =
      ((r.go limit turns).1, (r.go limit turns).2.counted t path id lines') := by
  induction turns generalizing r lines with
  | zero => exact ⟨plain, lines, rfl⟩
  | succ turns ih =>
    obtain ⟨hplain, lines', hturn⟩ := turn_counted t limit plain lines
    unfold go
    rw [hturn]
    rcases hr : r.turn limit with ⟨p, r'⟩
    rw [hr] at hplain
    cases p with
    | goesOn => exact ih hplain lines'
    | returned n => exact ⟨hplain, lines', rfl⟩
    | failed f => exact ⟨hplain, lines', rfl⟩

end Run

namespace Disk

variable {d d' : Disk} {p : Path}

/-- A path leads where it led, and to the file, folder or nothing to which it led. -/
structure Spares (p : Path) (d d' : Disk) : Prop where
  locate_eq : d'.locate p = d.locate p
  node_eq : ∀ l, d.locate p = .ok l → d'.node? l = d.node? l

theorem Spares.read_eq {m : Path} (spares : Spares p d d') (gains : d.Gains m d') :
    d'.read p = d.read p := by
  unfold read
  rw [spares.locate_eq]
  rcases hl : d.locate p with f | l
  · rfl
  · simp only [bind, Except.bind]
    rw [spares.node_eq l hl]
    rcases hn : d.node? l with _ | _ | id
    · rfl
    · rfl
    · dsimp only
      rw [gains.held l id hn]

theorem Spares.acquire (spares : Spares p d d') (keep : Bool) :
    (∃ f, d.acquire p keep = .error f ∧ d'.acquire p keep = .error f) ∨
      ∃ i e j e', d.acquire p keep = .ok (i, e) ∧ d'.acquire p keep = .ok (j, e') := by
  unfold Disk.acquire
  rw [spares.locate_eq]
  rcases hl : d.locate p with f | l
  · exact Or.inl ⟨f, rfl, rfl⟩
  · simp only [bind, Except.bind]
    rw [spares.node_eq l hl]
    rcases d.node? l with _ | _ | id
    · exact Or.inr ⟨_, _, _, _, rfl, rfl⟩
    · exact Or.inl ⟨_, rfl, rfl⟩
    · exact Or.inr ⟨_, _, _, _, rfl, rfl⟩

theorem acquire_other {keep : Bool} {i k : Nat} {m : Path} (numbered : d.Numbered)
    (opened : d.acquire p keep = .ok (i, d')) (hm : d.file? m = some k)
    (other : d.file? m ≠ d.file? p) : k ≠ i := by
  rintro rfl
  obtain ⟨l, hl, ⟨hn, -⟩ | ⟨-, rfl, -⟩⟩ := acquire_cases opened
  · exact other (hm.trans (file?_of_node hl hn).symm)
  · obtain ⟨l', -, hn⟩ := node_of_file? hm
    exact Nat.lt_irrefl _ (numbered l' _ hn)

end Disk

namespace Sink

variable {d : Disk} {path : Path} {w : World}

theorem acquire_spared {m : Path} (append : Bool) (spares : w.disk.Spares path d)
    (gains : w.disk.Gains m d) :
    let s := make path append none
    (∃ f, s.acquire w = (.error f, s, w) ∧
        s.acquire { w with disk := d } = (.error f, s, { w with disk := d }) ∧
        d.file? path = none) ∨
      ∃ (t : Site) (h : Handle) (v : World), s.acquire w = (.ok (), { s with file := some h }, v) ∧
        s.acquire { w with disk := d } =
          (.ok (), t.sink { s with file := some h }, t.world h.id v) ∧
        h.closed = false ∧ v.disk.file? path = some h.id ∧
        d.acquire path append = .ok (t.id, t.disk) := by
  obtain ⟨f, hd, hd'⟩ | ⟨i, e, j, e', hd, hd'⟩ := spares.acquire append
  · left
    refine ⟨f.toFailure Fault.isSystem (.cannotOpen path), ?_, ?_, Disk.file?_of_acquire_error hd'⟩
    · simp [acquire, make, Handle.acquire, hd, bind, Except.bind]
    · simp [acquire, make, Handle.acquire, hd', bind, Except.bind]
  · right
    have hcontent : e'.content j = e.content i := by
      rw [Disk.acquire_base hd, Disk.acquire_base hd', Disk.base, Disk.base, spares.read_eq gains]
    have hsettled : (Site.mk e' j).diskOf i e = e' := by
      rw [Site.diskOf, ← hcontent, Disk.setContent_self]
    obtain ⟨l, -, hl, hn, -⟩ := Disk.acquire_frame hd
    have hfile : e.file? path = some i := Disk.file?_of_node hl hn
    let h : Handle := ⟨i, if append then (e.content i).length else 0, append, false, .none⟩
    have hopen : Handle.acquire path append w.disk = .ok (h, e) := by
      simp [Handle.acquire, hd, bind, Except.bind, pure, Except.pure, h]
    have hopen' : Handle.acquire path append d = .ok ((Site.mk e' j).handle h, e') := by
      simp [Handle.acquire, hd', bind, Except.bind, pure, Except.pure, h, Site.handle, hcontent]
    obtain ⟨v, hhere, hthere, hv⟩ : ∃ v : World,
        (make path append none).acquire w =
          (.ok (), { make path append none with file := some h }, v) ∧
        (make path append none).acquire { w with disk := d } =
          (.ok (), (Site.mk e' j).sink { make path append none with file := some h },
            { v with disk := e' }) ∧
        v.disk = e := by
      simp only [acquire, make, hopen, hopen']
      exact ⟨_, rfl, rfl, rfl⟩
    refine ⟨⟨e', j⟩, h, v, hhere, ?_, rfl, by rw [hv]; exact hfile, hd'⟩
    rw [hthere, Site.world, hv, hsettled]

end Sink

namespace Session

variable {γ : Type}

theorem exportCounters_read (collector : Collector) (book : MeterBook) (now : Moment)
    (meter : Option Meter) (path : Path) {w : World} {k : Nat}
    (leads : w.disk.file? book.file.path = some k) (other : w.disk.file? path ≠ some k) :
    let v := exportCounters collector ⟨some book⟩ now meter w
    v.stdout = w.stdout ∧ v.disk.read path = w.disk.read path := by
  unfold exportCounters
  cases meter with
  | none => exact ⟨rfl, rfl⟩
  | some m =>
    dsimp only
    split
    · exact ⟨rfl, rfl⟩
    · simp only [MetricFile.write, Disk.acquire_file leads]
      exact ⟨trivial, Disk.setContent_read other _⟩

theorem close_counted {t : Site} {path : Path} {id k : Nat} {r : Run γ} {book : MeterBook}
    (collector : Collector) (plain : r.Plain path id)
    (leads : t.disk.file? path = some t.id)
    (hbook : t.disk.file? book.file.path = some k) (other : k ≠ t.id) (now : Moment) (p : Progress)
    (lines : List Text) :
    let x := close collector ⟨none⟩ now p r
    let y := close collector ⟨some book⟩ now p (r.counted t path id lines)
    y.1 = x.1 ∧ y.2.world.stdout = x.2.world.stdout ∧
      y.2.world.disk.read path = x.2.world.disk.read path := by
  obtain ⟨h, hfile, -⟩ := plain.file
  obtain ⟨answer, w', hleave, hdisk, hstdout⟩ :=
    leave_frame p.isFailed r.simulation.sink r.world h hfile
  have hmoved := Sink.leave_elsewhere t id p.isFailed r.simulation.sink r.world
  have hextends : t.disk.Extends (t.world id w').disk := t.disk.setContent_extends _ _
  have hfile' := Disk.file?_extends hextends book.file.path k hbook
  have hleads := Disk.file?_extends hextends path t.id leads
  obtain ⟨hsaid, hsame⟩ := exportCounters_read collector book now
    (some (.counting path.toText lines)) path hfile'
    (by rw [hleads]; exact fun h => other (Option.some.inj h).symm)
  rw [hleave] at hmoved
  -- The path leads to another number on the other disk, under which the same bytes are held.
  have hread : (t.world id w').disk.read path = w'.disk.read path := by
    have hplain : w'.disk.file? path = some id := by
      rw [hdisk]
      exact plain.leads
    rw [Disk.read_of_file? hplain, Disk.read_of_file? hleads]
    exact congrArg Except.ok (t.content id w'.disk)
  dsimp only [close, release, Run.counted]
  rw [hmoved, hleave]
  cases answer with
  | ok u => exact ⟨rfl, hsaid, hsame.trans hread⟩
  | error f => exact ⟨rfl, hsaid, hsame.trans hread⟩

theorem start_spared {settings : Settings} {w : World} {m : Path} {file : MetricFile} {d : Disk}
    (producer : γ) (schedule : Schedule) (plan : Plan) (now : Moment)
    (acquired : MetricFile.acquire m w.disk = (.ok file, d)) (gains : w.disk.Gains m d)
    (spares : w.disk.Spares settings.outputPath d) :
    (∃ f, start { settings with metricsPath := none } producer schedule plan now w =
          (.failed f, ⟨none⟩, .ofSchedule
            (simulationOf { settings with metricsPath := none } producer) w schedule) ∧
        start { settings with metricsPath := some m } producer schedule plan now w =
          (.failed f, ⟨some ⟨file, now.nanoseconds⟩⟩, .ofSchedule
            (simulationOf { settings with metricsPath := some m } producer) { w with disk := d }
            schedule) ∧
        d.file? settings.outputPath = none) ∨
      ∃ t id r, start { settings with metricsPath := none } producer schedule plan now w =
          (.goesOn, ⟨none⟩, r) ∧
        start { settings with metricsPath := some m } producer schedule plan now w =
          (.goesOn, ⟨some ⟨file, now.nanoseconds⟩⟩, r.counted t settings.outputPath id []) ∧
        r.Plain settings.outputPath id ∧
        d.acquire settings.outputPath settings.append = .ok (t.id, t.disk) := by
  have hbook : acquireBook { settings with metricsPath := some m } now w =
      (.ok (some ⟨file, now.nanoseconds⟩), { w with disk := d }) := by
    simp only [acquireBook, acquired]
  have hnone : acquireBook { settings with metricsPath := none } now w = (.ok none, w) := rfl
  obtain ⟨f, hplain, hcounted, habsent⟩ | ⟨t, h, v, hplain, hcounted, hopen, hleads, hopened⟩ :=
    Sink.acquire_spared settings.append spares gains
  · refine Or.inl ⟨f, ?_, ?_, habsent⟩
    · simp only [start, hnone, simulationOf, hplain]
      rfl
    · simp only [start, hbook, simulationOf, hcounted]
      rfl
  · refine Or.inr ⟨t, h.id, .ofSchedule ⟨producer,
      { Sink.make settings.outputPath settings.append none with file := some { h with plan := plan } },
      none⟩ v schedule, ?_, ?_, ⟨⟨_, rfl, rfl, hopen⟩, rfl, hleads, rfl⟩, hopened⟩
    · simp only [start, hnone, simulationOf, hplain]
      rfl
    · simp only [start, hbook, simulationOf, hcounted]
      rfl

/-- Acquiring the metrics file leaves the output path as it is, and the file is another one. -/
structure Aside (m out : Path) (d d' : Disk) : Prop where
  spares : d.Spares out d'
  other : d'.file? m ≠ d'.file? out

variable [Producer γ]

/-- A session that reports its counts ends as one that does not, with the same bytes in the output
file and the same text on the standard output. -/
theorem run_aside {settings : Settings} {producer : γ} {schedule : Schedule} {plan : Plan}
    {collector : Collector} {limit : Option Int} {span : Span} {turns : Nat} {w : World} {m : Path}
    {file : MetricFile} {d : Disk} (numbered : w.disk.Numbered)
    (acquired : MetricFile.acquire m w.disk = (.ok file, d))
    (aside : Aside m settings.outputPath w.disk d) :
    let counted := run collector { settings with metricsPath := some m } producer schedule plan
      limit span turns w
    let plain := run collector { settings with metricsPath := none } producer schedule plan limit
      span turns w
    counted.1 = plain.1 ∧ counted.2.world.stdout = plain.2.world.stdout ∧
      counted.2.world.disk.read settings.outputPath =
        plain.2.world.disk.read settings.outputPath := by
  have hgains := MetricFile.acquire_gains m numbered
  rw [acquired] at hgains
  obtain ⟨rfl, e, k, hpaves, hfile⟩ := MetricFile.acquire_ok acquired
  obtain ⟨l, -, hl, hn, -⟩ := Disk.acquire_frame hfile
  have hk : d.file? file.path = some k := Disk.file?_of_node hl hn
  obtain ⟨f, hstart, hstart', habsent⟩ | ⟨t, id, r, hstart, hstart', hr, hopened⟩ :=
      start_spared producer schedule plan span.opening acquired hgains aside.spares
  · obtain ⟨hsaid, hsame⟩ := exportCounters_read collector ⟨file, span.opening.nanoseconds⟩
      span.closing (some Meter.own) settings.outputPath (w := { w with disk := d }) hk
      (by rw [habsent]; exact nofun)
    dsimp only [run]
    rw [hstart, hstart']
    exact ⟨rfl, hsaid, hsame.trans (aside.spares.read_eq hgains)⟩
  · obtain ⟨hplain, lines, hgo⟩ := Run.go_counted t limit turns hr []
    obtain ⟨l', -, hl', hn', hextends, -⟩ := Disk.acquire_frame hopened
    have hnumbered : d.Numbered :=
      Disk.acquire_numbered (hpaves.furnishes.numbered numbered) hfile
    have hother : k ≠ t.id := Disk.acquire_other hnumbered hopened hk aside.other
    rw [run_started collector limit turns hstart, run_started collector limit turns hstart', hgo]
    exact close_counted collector hplain (Disk.file?_of_node hl' hn')
      (Disk.file?_extends hextends _ k hk) hother span.closing (r.go limit turns).1 lines

theorem run_aside_bare :
    bare.disk.Numbered ∧
      MetricFile.acquire ⟨0, [lit "m"]⟩ bare.disk =
        (.ok ⟨⟨0, [lit "m"]⟩⟩, Disk.empty.create (Disk.here ++ [[109]]) []) ∧
      Aside ⟨0, [lit "m"]⟩ bothFiles.outputPath bare.disk
        (Disk.empty.create (Disk.here ++ [[109]]) []) ∧
      (run keeper { bothFiles with metricsPath := some ⟨0, [lit "m"]⟩ } steady .never full (some 3)
        morning 3 bare).1 =
          (run keeper { bothFiles with metricsPath := none } steady .never full (some 3) morning 3
            bare).1 := by
  have haside : Aside ⟨0, [lit "m"]⟩ bothFiles.outputPath bare.disk
      (Disk.empty.create (Disk.here ++ [[109]]) []) := by
    refine ⟨⟨rfl, ?_⟩, by decide⟩
    intro l hl
    obtain rfl := Except.ok.inj hl
    rfl
  exact ⟨Disk.empty_numbered, MetricFile.acquire_empty, haside,
    (run_aside Disk.empty_numbered MetricFile.acquire_empty haside).1⟩

def inFolder : Settings := ⟨⟨0, [lit "d", lit "f"]⟩, false, false, none, .info⟩

def stopped : Schedule := ⟨true, none, none, none⟩

/-- A metrics file in a missing folder makes the folder, without which the output file cannot be
opened; and one that is the output file itself is written to behind the samples. -/
theorem run_not_aside :
    ((MetricFile.acquire ⟨0, [lit "d", lit "m"]⟩ bare.disk).1.isOk ∧
      (run keeper { inFolder with metricsPath := some ⟨0, [lit "d", lit "m"]⟩ } steady stopped .none
        none morning 1 bare).1 = .returned 0 ∧
      (run keeper { inFolder with metricsPath := none } steady stopped .none none morning 1 bare).1 =
        .failed (.cannotOpen inFolder.outputPath (.system 2 (some (lit "d/f"))))) ∧
    ((MetricFile.acquire oneFile.outputPath bare.disk).1.isOk ∧
      (run keeper { oneFile with metricsPath := some oneFile.outputPath } steady .never .none (some 1)
          morning 1 bare).2.world.disk.read oneFile.outputPath ≠
        (run keeper { oneFile with metricsPath := none } steady .never .none (some 1) morning
          1 bare).2.world.disk.read oneFile.outputPath) := by
  refine ⟨by decide +kernel, by decide +kernel, ?_⟩
  intro hsame
  have hsize : ((run keeper { oneFile with metricsPath := some oneFile.outputPath } steady .never
        .none (some 1) morning 1 bare).2.world.disk.read oneFile.outputPath).toOption.map
          List.length ≠
      ((run keeper { oneFile with metricsPath := none } steady .never .none (some 1) morning 1
        bare).2.world.disk.read oneFile.outputPath).toOption.map List.length := by
    decide +kernel
  exact hsize (by rw [hsame])

end Session

end HostTelemetry
