import HostTelemetry.Proofs.Disk.Opening
import HostTelemetry.Proofs.Record.Refusal
import HostTelemetry.Proofs.Simulation.Replay
import HostTelemetry.Proofs.Sink.Failing

/-!
# How a session fails

A session that fails does so with a failure of its own that keeps the fault of a call as its cause,
with the failure of a sample that is no record, or with an interrupt. What else leaves it are
leaks: failures of the source and the clock, a metric that is a whole number without a double, a
path that the system does not take for one, and faults that the sink does not expect, among them a
sync that fails with the fault of a value.
-/

set_option autoImplicit false

namespace HostTelemetry

namespace Generator

variable {σ τ : Type} [Source σ] [Clock τ]

omit [Clock τ] in
theorem draw_fails {clamp : Bool} {d : Distribution} {high : Option Number} {s : σ} {g : Fault}
    (h : (draw clamp d high s).1 = .error g) : (d.sample s).1 = .error g := by
  unfold draw Distribution.sampleBounded at h
  dsimp only at h
  split at h
  · cases hd : (d.sample s).1 with
    | error e =>
      rw [hd] at h
      exact h
    | ok x =>
      rw [hd] at h
      cases h
  · exact h

theorem drawAll_fails {clamp : Bool} {ds : List (Distribution × Option Number)} {s : σ} {g : Fault}
    (h : (drawAll clamp ds s).1 = .error g) : ∃ d ∈ ds, ∃ t : σ, (d.1.sample t).1 = .error g := by
  induction ds generalizing s with
  | nil => cases h
  | cons d ds ih =>
    unfold drawAll at h
    rcases hdraw : draw clamp d.1 d.2 s with ⟨e | x, t⟩
    · simp only [hdraw] at h
      obtain rfl := Except.error.inj h
      exact ⟨d, List.mem_cons_self .., s, draw_fails (congrArg Prod.fst hdraw)⟩
    · simp only [hdraw] at h
      cases hrest : (drawAll clamp ds t).1 with
      | ok xs =>
        rw [hrest] at h
        cases h
      | error e =>
        rw [hrest] at h
        cases h
        obtain ⟨d', hd', t', ht'⟩ := ih hrest
        exact ⟨d', List.mem_cons_of_mem _ hd', t', ht'⟩

theorem produce_fails {g : Generator σ τ} {f : Failure} (h : (Producer.produce g).1 = .error f) :
    (∃ d, ∃ s : σ, ∃ e, d ∈ fields ∧ (d.1.sample s).1 = .error e ∧ f = .passed e) ∨
      (Clock.now g.clock).1 = .error f := by
  have hmade : (Producer.produce g).1 = (generate g).1 := rfl
  rw [hmade] at h
  unfold generate at h
  rcases hdraw : drawAll g.clamp fields g.source with ⟨e | xs, source⟩
  · simp only [hdraw] at h
    obtain ⟨d, hd, s, hs⟩ := drawAll_fails (congrArg Prod.fst hdraw)
    exact Or.inl ⟨d, s, e, hd, hs, (Except.error.inj h).symm⟩
  · simp only [hdraw] at h
    cases htime : (Clock.now g.clock).1 with
    | ok time =>
      rw [htime] at h
      cases h
    | error e =>
      rw [htime] at h
      exact Or.inr (congrArg _ (Except.error.inj h))

end Generator

namespace Session

open Sink (recordOf)

variable {σ τ : Type} [Source σ] [Clock τ]

inductive Wraps (settings : Settings) (now : Moment) (plan : Plan) (w : World) :
    Failure → Fault → Prop
  | metrics {p : Path} {g : Fault} (path : settings.metricsPath = some p)
    (raised : (MetricFile.acquire p w.disk).1 = .error g) :
    Wraps settings now plan w (.cannotOpenMetrics p g) g
  | output {g : Fault}
    (raised : (acquireBook settings now w).2.disk.acquire settings.outputPath settings.append =
      .error g) :
    Wraps settings now plan w (.cannotOpen settings.outputPath g) g
  | sink {f : Failure} {g : Fault} (wraps : Sink.Wraps settings.outputPath plan w.stdout f g) :
    Wraps settings now plan w f g

/-- The failures that a session lets through when it would make its `n`th sample, from 0 on. -/
inductive Leaks (settings : Settings) (producer : Generator σ τ) (plan : Plan) (w : World)
    (n : Nat) : Failure → Prop
  | source {d : Distribution × Option Number} {s : σ} {g : Fault} (drawn : d ∈ Generator.fields)
    (raised : (d.1.sample s).1 = .error g) : Leaks settings producer plan w n (.passed g)
  | clock {f : Failure} (raised : (Clock.now (Producer.after n producer).clock).1 = .error f) :
    Leaks settings producer plan w n f
  | overflow {s : Sample} (made : (Producer.produce (Producer.after n producer)).1 = .ok s)
    (overflows : Record.Overflows (Record.measuresOf s)) :
    Leaks settings producer plan w n (.passed .tooLargeForDouble)
  | metricsName {p : Path} {g : Fault} (path : settings.metricsPath = some p)
    (refused : p.parent.fileNames? = .error g ∨ p.fileNames? = .error g) :
    Leaks settings producer plan w n (.passed g)
  | outputName {g : Fault} (refused : settings.outputPath.fileNames? = .error g) :
    Leaks settings producer plan w n (.passed g)
  | sink {g : Fault} (passes : Sink.Passes plan w.stdout g) :
    Leaks settings producer plan w n (.passed g)

def Refuses (producer : Generator σ τ) (n : Nat) (f : Failure) : Prop :=
  ∃ s, (Producer.produce (Producer.after n producer)).1 = .ok s ∧ s.encode = .error f ∧
    f.kind = .record

/-- All ways in which a session can fail that has made `n` samples. -/
def Explains (settings : Settings) (producer : Generator σ τ) (now : Moment) (plan : Plan)
    (w : World) (n : Nat) (f : Failure) : Prop :=
  (∃ g, Wraps settings now plan w f g) ∨ Refuses producer n f ∨ f = .passed .interrupt ∨
    Leaks settings producer plan w n f

omit [Source σ] [Clock τ] in
theorem Wraps.isOwn {settings : Settings} {now : Moment} {plan : Plan} {w : World} {f : Failure}
    {g : Fault} (h : Wraps settings now plan w f g) : f.isOwn ∧ f.cause = some g.kind := by
  cases h with
  | sink wraps => cases wraps <;> exact ⟨rfl, rfl⟩
  | _ => exact ⟨rfl, rfl⟩

section

variable {settings : Settings} {producer : Generator σ τ} {now : Moment} {plan : Plan} {w : World}
  {n : Nat} {f : Failure}

theorem explains_of_meets (h : Sink.Meets settings.outputPath plan w.stdout f) :
    Explains settings producer now plan w n f := by
  obtain ⟨g, h⟩ | ⟨g, h, rfl⟩ := h
  · exact Or.inl ⟨g, .sink h⟩
  · exact Or.inr (Or.inr (Or.inr (.sink h)))

theorem explains_of_unmade
    (h : Producer.lineAt producer n = .error f) :
    Explains settings producer now plan w n f := by
  rw [Producer.lineAt] at h
  cases hmade : (Producer.produce (Producer.after n producer)).1 with
  | error e =>
    rw [hmade] at h
    cases h
    obtain ⟨d, s, g, hdrawn, hraised, rfl⟩ | hraised := Generator.produce_fails hmade
    · exact Or.inr (Or.inr (Or.inr (.source hdrawn hraised)))
    · exact Or.inr (Or.inr (Or.inr (.clock hraised)))
  | ok s =>
    rw [hmade] at h
    obtain ⟨hover, hpassed⟩ | ⟨-, hsettled⟩ := Record.encode_passesIff s
    · rw [show s.encode = .error f from h] at hpassed
      cases hpassed
      exact Or.inr (Or.inr (Or.inr (.overflow hmade hover)))
    · exact Or.inr (Or.inl ⟨s, hmade, h, hsettled f h⟩)

end

/-- What of a run matters for how it fails. -/
structure Ready (settings : Settings) (plan : Plan) (stdout : Outlet)
    (r : Run (Generator σ τ)) : Prop where
  path_eq : r.simulation.sink.path = settings.outputPath
  outlet_eq : r.simulation.sink.outlet = none
  file : ∀ h, r.simulation.sink.file = some h → h.closed = false ∧ h.plan.Within plan
  stdout : r.world.stdout.Within stdout

structure Going (producer : Generator σ τ) (r : Run (Generator σ τ)) : Prop where
  opened : ∃ h, r.simulation.sink.file = some h
  produces : r.simulation.producer = Producer.after r.emitted producer

section

variable {settings : Settings} {producer : Generator σ τ} {now : Moment} {plan : Plan} {w : World}
  {r : Run (Generator σ τ)}

theorem give_explained (ready : Ready settings plan w.stdout r) (going : Going producer r)
    {line : Text}
    (hmade : (Producer.produce r.simulation.producer).1.bind Sample.encode = .ok line) :
    ∃ answer sink v, r.simulation.sink.emit line r.world = (answer, sink, v) ∧
      sink.path = settings.outputPath ∧ sink.outlet = none ∧
      (∃ h, sink.file = some h ∧ h.closed = false ∧ h.plan.Within plan) ∧
      v.stdout.Within w.stdout ∧
      ∀ f, answer = .error f → Sink.Meets settings.outputPath plan w.stdout f := by
  obtain ⟨s, -, hline⟩ := Generator.lineAt_ok (k := 0) hmade
  obtain ⟨record, -, rfl⟩ := (Record.encode_eq_ok_iff s line).1 hline
  have hascii := Sink.recordOf_ascii (Record.line_visible record)
  obtain ⟨h, hfile⟩ := going.opened
  obtain ⟨hopen, hplan⟩ := ready.file h hfile
  obtain ⟨answer, sink, v, h', hemit, hfile', hspends, hpath, hsome, hwithin, -, hmeets⟩ :=
    Sink.emit_meets (w := r.world) hfile hopen hascii
  have houtlet : sink.outlet = none := by
    rw [ready.outlet_eq] at hsome
    simpa using hsome
  have hbefore : r.simulation.sink.outletOf r.world = r.world.stdout := by
    rw [Sink.outletOf, ready.outlet_eq]
    rfl
  have hafter : sink.outletOf v = v.stdout := by
    rw [Sink.outletOf, houtlet]
    rfl
  rw [hafter, hbefore] at hwithin
  rw [hbefore, ready.path_eq] at hmeets
  refine ⟨answer, sink, v, hemit, hpath.trans ready.path_eq, houtlet, ?_,
    hwithin.trans ready.stdout, ?_⟩
  · exact ⟨h', hfile', hspends.closed_eq.trans hopen, hspends.plan.trans hplan⟩
  · intro f hf
    exact (hmeets f hf).of_within hplan ready.stdout

/-- A step fails for one of the reasons, or leaves a run that is ready for the next one. -/
theorem emit_explained (now : Moment) (ready : Ready settings plan w.stdout r)
    (going : Going producer r) :
    ∃ answer r', r.emit = (answer, r') ∧ Ready settings plan w.stdout r' ∧
      match answer with
      | .ok _ => Going producer r'
      | .error f => r'.emitted = r.emitted ∧
          Explains settings producer now plan w r.emitted f := by
  cases hmade : (Producer.produce r.simulation.producer).1.bind Sample.encode with
  | error f =>
    have hemit : r.emit = (.error f, { r with
        simulation := { r.simulation with
          producer := (Producer.produce r.simulation.producer).2 },
        stop := r.stop.sampled }) := by
      simp only [Run.emit, Simulation.step, hmade]
    rw [going.produces] at hmade
    exact ⟨.error f, _, hemit,
      ⟨ready.path_eq, ready.outlet_eq, ready.file, ready.stdout⟩, rfl,
      explains_of_unmade hmade⟩
  | ok line =>
    obtain ⟨answer, sink, v, hsink, hpath, houtlet, ⟨h, hfile, hopen⟩, hstdout, hmeets⟩ :=
      give_explained ready going hmade
    have hfiles : ∀ h, sink.file = some h → h.closed = false ∧ h.plan.Within plan := by
      intro h' hfile'
      rw [hfile] at hfile'
      obtain rfl := Option.some.inj hfile'
      exact hopen
    cases answer with
    | error f =>
      have hemit : r.emit = (.error f, ⟨⟨(Producer.produce r.simulation.producer).2, sink,
          r.simulation.meter⟩, v, r.stop.sampled, r.emitted⟩) := by
        simp only [Run.emit, Simulation.step, hmade, hsink]
      exact ⟨.error f, _, hemit, ⟨hpath, houtlet, hfiles, hstdout⟩, rfl,
        explains_of_meets (hmeets f rfl)⟩
    | ok size =>
      have hnext : (Producer.produce r.simulation.producer).2 =
          Producer.after (r.emitted + 1) producer := by
        rw [Producer.after_succ, ← going.produces]
      have hemit : r.emit = (.ok (), { r with
          simulation := Simulation.count size { r.simulation with
            producer := (Producer.produce r.simulation.producer).2, sink := sink },
          world := v.log .debug Simulation.logger
            (lit "Emitted sample " ++ Text.ofNat (r.emitted + 1)),
          stop := r.stop.sampled, emitted := r.emitted + 1 }) := by
        simp only [Run.emit, Simulation.step, hmade, hsink]
      exact ⟨.ok (), _, hemit, ⟨hpath, houtlet, hfiles, hstdout⟩, ⟨h, hfile⟩, hnext⟩

omit [Source σ] [Clock τ] in
theorem Ready.same {stdout : Outlet} {r' : Run (Generator σ τ)}
    (ready : Ready settings plan stdout r)
    (hs : r'.simulation = r.simulation) (ho : r'.world.stdout = r.world.stdout) :
    Ready settings plan stdout r' :=
  ⟨by rw [hs, ready.path_eq], by rw [hs, ready.outlet_eq], by rw [hs]; exact ready.file,
    by rw [ho]; exact ready.stdout⟩

theorem wait_fails {seconds : Double} {s s' : Stop} {g : Fault}
    (h : s.wait seconds = (.error g, s')) : g = .interrupt := by
  have hanswer := congrArg Prod.fst h
  unfold Stop.wait at hanswer
  dsimp only at hanswer
  split at hanswer
  · exact (Except.error.inj hanswer).symm
  · cases hanswer

def Stands (settings : Settings) (producer : Generator σ τ) (now : Moment) (plan : Plan) (w : World)
    (p : Progress) (r : Run (Generator σ τ)) : Prop :=
  Ready settings plan w.stdout r ∧
    match p with
    | .goesOn => Going producer r
    | .returned _ => True
    | .failed f => Explains settings producer now plan w r.emitted f

theorem turn_stands (now : Moment) (limit : Option Int) (ready : Ready settings plan w.stdout r)
    (going : Going producer r) :
    Stands settings producer now plan w (r.turn limit).1 (r.turn limit).2 := by
  unfold Run.turn
  split
  · exact ⟨ready.same rfl rfl, trivial⟩
  · obtain ⟨answer, r', hemit, ready', hanswer⟩ := emit_explained now ready going
    rw [hemit]
    cases answer with
    | error f =>
      obtain ⟨hemitted, hexplains⟩ := hanswer
      refine ⟨ready', ?_⟩
      dsimp only
      rwa [hemitted]
    | ok u =>
      dsimp only
      split
      · exact ⟨ready'.same rfl rfl, trivial⟩
      · cases hwait : r'.stop.wait Run.interval with
        | mk waited stop =>
          cases waited with
          | ok u => exact ⟨ready'.same rfl rfl, hanswer.opened, hanswer.produces⟩
          | error g =>
            obtain rfl := wait_fails hwait
            exact ⟨ready'.same rfl rfl, Or.inr (Or.inr (Or.inl rfl))⟩

theorem go_stands (now : Moment) (limit : Option Int) (turns : Nat)
    (ready : Ready settings plan w.stdout r) (going : Going producer r) :
    Stands settings producer now plan w (r.go limit turns).1 (r.go limit turns).2 := by
  induction turns generalizing r with
  | zero => exact ⟨ready, going⟩
  | succ turns ih =>
    have hturn := turn_stands now limit ready going
    unfold Run.go
    cases hr : r.turn limit with
    | mk p r' =>
      rw [hr] at hturn
      cases p with
      | goesOn => exact ih hturn.1 hturn.2
      | returned n => exact hturn
      | failed f => exact hturn

theorem acquireBook_stdout (settings : Settings) (now : Moment) (w : World) :
    (acquireBook settings now w).2.stdout = w.stdout := by
  rw [acquireBook_world]

theorem acquireBook_explained {v : World} {n : Nat} {f : Failure}
    (h : acquireBook settings now w = (.error f, v)) :
    Explains settings producer now plan w n f := by
  cases acquires_of_eq h with
  | @refused p g d path raised =>
    obtain ⟨-, hf⟩ | ⟨hno, hf⟩ := g.toFailure_cases Fault.isSystem (.cannotOpenMetrics p)
    · rw [hf]
      exact Or.inl ⟨g, .metrics path (by rw [raised])⟩
    · rw [hf]
      have hrefused := (MetricFile.acquire_blames raised).imp
        (fun b => b.refused hno) (fun b => b.refused hno)
      exact Or.inr (Or.inr (Or.inr (.metricsName path hrefused)))

theorem output_explained {v : World} {book : Option MeterBook} {n : Nat} {g : Fault}
    (acquired : acquireBook settings now w = (.ok book, v))
    (refused : v.disk.acquire settings.outputPath settings.append = .error g) :
    Explains settings producer now plan w n
      (g.toFailure Fault.isSystem (.cannotOpen settings.outputPath)) := by
  obtain ⟨-, hf⟩ | ⟨hno, hf⟩ :=
    g.toFailure_cases Fault.isSystem (.cannotOpen settings.outputPath)
  · rw [hf]
    exact Or.inl ⟨g, .output (by rw [acquired]; exact refused)⟩
  · rw [hf]
    exact Or.inr (Or.inr (Or.inr (.outputName ((Disk.acquire_blames refused).refused hno))))

omit [Source σ] [Clock τ] in
theorem simulationOf_ready {v : World} (schedule : Schedule) (hstdout : v.stdout = w.stdout) :
    Ready settings plan w.stdout (.ofSchedule (simulationOf settings producer) v schedule) := by
  refine ⟨rfl, rfl, by simp [simulationOf, Run.ofSchedule, Sink.make], ?_⟩
  rw [← hstdout]
  exact .refl _

theorem start_stands (settings : Settings) (producer : Generator σ τ) (schedule : Schedule)
    (plan : Plan) (now : Moment) (w : World) :
    Stands settings producer now plan w (start settings producer schedule plan now w).1
      (start settings producer schedule plan now w).2.2 := by
  have hstdout := acquireBook_stdout settings now w
  have hstarts := start_starts settings producer schedule plan now w
  generalize start settings producer schedule plan now w = e at hstarts ⊢
  cases hstarts with
  | bookless refused =>
    rw [refused] at hstdout
    exact ⟨simulationOf_ready schedule hstdout, acquireBook_explained refused⟩
  | fileless acquired refused =>
    rw [acquired] at hstdout
    exact ⟨simulationOf_ready schedule hstdout, output_explained acquired refused⟩
  | opened acquired opens =>
    rw [acquired] at hstdout
    obtain ⟨h, l, rfl, -, -, -, hopen, hsame, -⟩ := Sink.acquire_opened opens
    refine ⟨⟨rfl, rfl, ?_, ?_⟩, ⟨_, rfl⟩, rfl⟩
    · intro h' hfile
      obtain rfl := Option.some.inj hfile
      exact ⟨hopen, .refl plan⟩
    · rw [← hstdout, ← hsame]
      exact .refl _

theorem close_explained (collector : Collector) (session : Session) (closing : Moment)
    {p : Progress} {f : Failure} (stands : Stands settings producer now plan w p r)
    (failed : (session.close collector closing p r).1 = .failed f) :
    Explains settings producer now plan w (session.close collector closing p r).2.emitted f := by
  obtain ⟨ready, hp⟩ := stands
  obtain ⟨answer, v, hleave, hmeets⟩ := Sink.leave_meets p.isFailed r.simulation.sink r.world plan
    w.stdout fun h hfile => (ready.file h hfile).2
  cases answer with
  | error g =>
    have hclose : session.close collector closing p r = (.failed g, { r with
        simulation := { r.simulation with sink := { r.simulation.sink with file := none } },
        world := session.exportCounters collector closing r.simulation.meter v }) := by
      simp only [close, release, hleave]
    rw [hclose] at failed ⊢
    cases failed
    have hmeets' := hmeets f rfl
    rw [ready.path_eq] at hmeets'
    exact explains_of_meets hmeets'
  | ok u =>
    have hclose : session.close collector closing p r = (p, { r with
        simulation := { r.simulation with sink := { r.simulation.sink with file := none } },
        world := session.exportCounters collector closing r.simulation.meter v }) := by
      simp only [close, release, hleave]
    rw [hclose] at failed ⊢
    dsimp only at failed
    subst failed
    exact hp

/-- A session that fails does so with a failure of its own that keeps the fault of a call as its
cause, because the next sample is refused as a record, with an interrupt, or with a leak. -/
theorem run_fails {collector : Collector} {settings : Settings} {producer : Generator σ τ}
    {schedule : Schedule} {plan : Plan} {limit : Option Int} {span : Span} {turns : Nat} {w : World}
    {f : Failure}
    (failed : (run collector settings producer schedule plan limit span turns w).1 = .failed f) :
    let n := (run collector settings producer schedule plan limit span turns w).2.emitted
    (∃ g, Wraps settings span.opening plan w f g ∧ f.isOwn ∧ f.cause = some g.kind) ∨
      (Refuses producer n f ∧ f.isOwn) ∨ f = .passed .interrupt ∨
      Leaks settings producer plan w n f := by
  have hstart := start_stands settings producer schedule plan span.opening w
  have hexplains : Explains settings producer span.opening plan w
      (run collector settings producer schedule plan limit span turns w).2.emitted f := by
    unfold run at failed ⊢
    rcases hs : start settings producer schedule plan span.opening w with ⟨p, session, r⟩
    rw [hs] at hstart failed
    cases p with
    | goesOn =>
      have hgo := go_stands span.opening limit turns hstart.1 hstart.2
      rcases hrun : r.go limit turns with ⟨p, r'⟩
      rw [hrun] at hgo
      dsimp only at hgo failed ⊢
      rw [hrun] at failed ⊢
      exact close_explained collector session span.closing hgo failed
    | returned n => exact close_explained collector session span.closing hstart failed
    | failed g => exact close_explained collector session span.closing hstart failed
  obtain ⟨g, h⟩ | ⟨s, hmade, hencode, hkind⟩ | h | h := hexplains
  · exact Or.inl ⟨g, h, h.isOwn⟩
  · refine Or.inr (Or.inl ⟨⟨s, hmade, hencode, hkind⟩, ?_⟩)
    simp [Failure.isOwn, hkind]
  · exact Or.inr (Or.inr (Or.inl h))
  · exact Or.inr (Or.inr (Or.inr h))

end

def noFolder : Settings := ⟨⟨0, [lit "d", lit "f"]⟩, false, false, none, .info⟩

theorem run_fails_noFolder :
    (run keeper noFolder steady .never .none none morning 1 bare).1 =
        .failed (.cannotOpen noFolder.outputPath (.system 2 (some (lit "d/f")))) ∧
      ∃ g, Wraps noFolder dawn .none bare
        (.cannotOpen noFolder.outputPath (.system 2 (some (lit "d/f")))) g ∧ g.isSystem := by
  have hfailed : (run keeper noFolder steady .never .none none morning 1 bare).1 =
      .failed (.cannotOpen noFolder.outputPath (.system 2 (some (lit "d/f")))) := rfl
  refine ⟨hfailed, ?_⟩
  obtain ⟨g, hwraps, -, hcause⟩ | ⟨⟨s, -, -, hkind⟩, -⟩ | h | h := run_fails hfailed
  · refine ⟨g, hwraps, ?_⟩
    rw [Fault.isSystem, ← Option.some.inj hcause]
    rfl
  · cases hkind
  · cases h
  · cases h with
    | clock raised => cases raised

def zeroName : Settings := ⟨⟨0, [[97, 0, 98]]⟩, false, false, none, .info⟩

def timeless : Generator Steady AnyClock :=
  { steady with clock := .planned (.ofList [.fails (.passed (.planned .runtime (lit "no time")))]) }

theorem run_leaks :
    Settings.default.override [(.text (lit "output_path"), .text [97, 0, 98])] = .ok zeroName ∧
      (run keeper zeroName steady .never .none none morning 1 bare).1 = .failed (.passed .nullByte) ∧
      (run keeper oneFile timeless .never .none none morning 1 bare).1 =
        .failed (.passed (.planned .runtime (lit "no time"))) ∧
      (Failure.passed .nullByte).isOwn = false ∧
      (Failure.passed (.planned .runtime (lit "no time"))).isOwn = false :=
  ⟨rfl, rfl, rfl, rfl, rfl⟩

end Session

end HostTelemetry
