import HostTelemetry.Proofs.Sink.Failing
import HostTelemetry.Simulation.Session

/-!
# How a session starts

A session acquires its metrics file, if it is asked to, and then its output file. Either of them can
be refused, and the session then ends as it starts. All that is said elsewhere of a start is said
case by case of what is listed here.
-/

set_option autoImplicit false

namespace HostTelemetry.Session

inductive Acquires (settings : Settings) (now : Moment) (w : World) :
    Except Failure (Option MeterBook) × World → Prop
  | unasked (path : settings.metricsPath = none) : Acquires settings now w (.ok none, w)
  | refused {m : Path} {g : Fault} {d : Disk} (path : settings.metricsPath = some m)
    (raised : MetricFile.acquire m w.disk = (.error g, d)) :
    Acquires settings now w
      (.error (g.toFailure Fault.isSystem (.cannotOpenMetrics m)), { w with disk := d })
  | acquired {m : Path} {file : MetricFile} {d : Disk} (path : settings.metricsPath = some m)
    (made : MetricFile.acquire m w.disk = (.ok file, d)) :
    Acquires settings now w (.ok (some ⟨file, now.nanoseconds⟩), { w with disk := d })

theorem acquireBook_acquires (settings : Settings) (now : Moment) (w : World) :
    Acquires settings now w (acquireBook settings now w) := by
  unfold acquireBook
  cases hm : settings.metricsPath with
  | none => exact .unasked hm
  | some m =>
    dsimp only
    rcases hopen : MetricFile.acquire m w.disk with ⟨g | file, d⟩
    · exact .refused hm hopen
    · exact .acquired hm hopen

theorem acquires_of_eq {settings : Settings} {now : Moment} {w : World}
    {e : Except Failure (Option MeterBook) × World} (h : acquireBook settings now w = e) :
    Acquires settings now w e :=
  h ▸ acquireBook_acquires settings now w

theorem acquireBook_world (settings : Settings) (now : Moment) (w : World) :
    (acquireBook settings now w).2 =
      { w with
        disk := match settings.metricsPath with
          | none => w.disk
          | some m => (MetricFile.acquire m w.disk).2 } := by
  have hacquires := acquireBook_acquires settings now w
  generalize acquireBook settings now w = e at hacquires ⊢
  cases hacquires with
  | unasked path => rw [path]
  | refused path raised => simp only [path, raised]
  | acquired path made => simp only [path, made]

variable {γ : Type}

/-- The ways in which a session can start. Without its output file it has the sink that was made for
it, and the world in which the metrics file was asked for. -/
inductive Starts (settings : Settings) (producer : γ) (schedule : Schedule) (plan : Plan)
    (now : Moment) (w : World) : Progress × Session × Run γ → Prop
  | bookless {f : Failure} {v : World} (refused : acquireBook settings now w = (.error f, v)) :
    Starts settings producer schedule plan now w
      (.failed f, ⟨none⟩, .ofSchedule (simulationOf settings producer) v schedule)
  | fileless {book : Option MeterBook} {v : World} {g : Fault}
    (acquired : acquireBook settings now w = (.ok book, v))
    (refused : v.disk.acquire settings.outputPath settings.append = .error g) :
    Starts settings producer schedule plan now w
      (.failed (g.toFailure Fault.isSystem (.cannotOpen settings.outputPath)), ⟨book⟩,
        .ofSchedule (simulationOf settings producer) v schedule)
  | opened {book : Option MeterBook} {v v' : World} {sink : Sink}
    (acquired : acquireBook settings now w = (.ok book, v))
    (opens : (Sink.make settings.outputPath settings.append none).acquire v = (.ok (), sink, v')) :
    Starts settings producer schedule plan now w
      (.goesOn, ⟨book⟩, .ofSchedule
        { simulationOf settings producer with sink := sink.withPlan plan } v' schedule)

theorem start_starts (settings : Settings) (producer : γ) (schedule : Schedule) (plan : Plan)
    (now : Moment) (w : World) :
    Starts settings producer schedule plan now w
      (start settings producer schedule plan now w) := by
  unfold start
  dsimp only
  rcases hb : acquireBook settings now w with ⟨f | book, v⟩
  · exact .bookless hb
  · dsimp only [simulationOf]
    rcases hs : (Sink.make settings.outputPath settings.append none).acquire v with
      ⟨f | ⟨⟩, sink, v'⟩
    · obtain ⟨rfl, rfl, g, hrefused, rfl⟩ := Sink.acquire_fails rfl hs
      exact .fileless hb hrefused
    · exact .opened hb hs

variable {settings : Settings} {producer : γ} {schedule : Schedule} {plan : Plan} {now : Moment}
  {w : World} {session : Session} {r : Run γ}

theorem starts_of_eq {e : Progress × Session × Run γ}
    (h : start settings producer schedule plan now w = e) :
    Starts settings producer schedule plan now w e :=
  h ▸ start_starts settings producer schedule plan now w

theorem start_ended {p : Progress}
    (started : start settings producer schedule plan now w = (p, session, r))
    (ended : p ≠ .goesOn) :
    ∃ f v, p = .failed f ∧ r = .ofSchedule (simulationOf settings producer) v schedule := by
  cases starts_of_eq started with
  | bookless => exact ⟨_, _, rfl, rfl⟩
  | fileless => exact ⟨_, _, rfl, rfl⟩
  | opened => exact absurd rfl ended

theorem own_report {collector : Collector} (idle : collector.Idle) (opening closing : Int) :
    Meter.own.report collector opening closing = [] := by
  apply idle
  intro t ht
  simp only [Meter.told, List.mem_cons, List.not_mem_nil, or_false] at ht
  rcases ht with rfl | rfl <;> rfl

theorem close_unopened {collector : Collector} (idle : collector.Idle) (session : Session)
    (now : Moment) (p : Progress) (settings : Settings) (producer : γ) (v : World)
    (schedule : Schedule) :
    session.close collector now p (.ofSchedule (simulationOf settings producer) v schedule) =
      (p, .ofSchedule (simulationOf settings producer) v schedule) := by
  have hexport :
      session.exportCounters collector now (simulationOf settings producer).meter v = v := by
    simp only [exportCounters, simulationOf]
    rcases session.book with _ | book
    · rfl
    · cases settings.metricsPath with
      | none => rfl
      | some m => simp only [Option.map_some, own_report idle]
  have hrelease : release p (.ofSchedule (simulationOf settings producer) v schedule) =
      (p, .ofSchedule (simulationOf settings producer) v schedule) := rfl
  rw [close, hrelease]
  dsimp only [Run.ofSchedule]
  rw [hexport]

variable [Producer γ]

theorem run_started (collector : Collector) {span : Span} (limit : Option Int) (turns : Nat)
    (started : start settings producer schedule plan span.opening w = (.goesOn, session, r)) :
    run collector settings producer schedule plan limit span turns w =
      session.close collector span.closing (r.go limit turns).1 (r.go limit turns).2 := by
  rw [run, started]

theorem run_ended {collector : Collector} {span : Span} {p : Progress} (idle : collector.Idle)
    (limit : Option Int) (turns : Nat)
    (started : start settings producer schedule plan span.opening w = (p, session, r))
    (ended : p ≠ .goesOn) :
    run collector settings producer schedule plan limit span turns w = (p, r) := by
  obtain ⟨f, v, rfl, rfl⟩ := start_ended started ended
  rw [run, started]
  exact close_unopened idle session span.closing _ settings producer v schedule

theorem opened_or_failed (collector : Collector) (settings : Settings) (producer : γ)
    (schedule : Schedule) (plan : Plan) (limit : Option Int) (span : Span) (turns : Nat)
    (w : World) :
    (∃ session r, start settings producer schedule plan span.opening w =
      (.goesOn, session, r)) ∨
      ∃ f session r, start settings producer schedule plan span.opening w =
        (.failed f, session, r) ∧
        (run collector settings producer schedule plan limit span turns w).1 = .failed f ∧
        (run collector settings producer schedule plan limit span turns w).2.emitted = 0 := by
  rcases hstart : start settings producer schedule plan span.opening w with ⟨p, session, r⟩
  by_cases hp : p = .goesOn
  · rw [hp]
    exact Or.inl ⟨session, r, rfl⟩
  · obtain ⟨f, v, rfl, rfl⟩ := start_ended hstart hp
    refine Or.inr ⟨f, session, _, rfl, ?_⟩
    rw [run, hstart]
    exact ⟨rfl, rfl⟩

end HostTelemetry.Session
