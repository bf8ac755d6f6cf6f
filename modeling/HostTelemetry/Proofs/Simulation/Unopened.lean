import HostTelemetry.Proofs.Disk.Gain
import HostTelemetry.Proofs.Simulation.Taxonomy

/-!
# Sessions that are not opened

A session that cannot get its files has opened nothing for writing that was there: of the metrics
file it may leave the folders above it and the file, empty, and of the output file nothing at all.
There is nothing to let go of then, and nothing to report. A session that is open does not fail for
want of a file any more.
-/

set_option autoImplicit false

namespace HostTelemetry

inductive Failure.Opening : Failure → Prop
  | metrics (p : Path) (f : Fault) : Opening (.cannotOpenMetrics p f)
  | output (p : Path) (f : Fault) : Opening (.cannotOpen p f)

namespace Session

section

variable {γ : Type} {settings : Settings} {producer : γ} {schedule : Schedule}
  {plan : Plan} {now : Moment} {w : World} {session : Session} {r : Run γ} {f : Failure}

/-- A session that is not opened has done no more than acquire its metrics file. -/
structure Unopened (settings : Settings) (w v : World) : Prop where
  stdout_eq : v.stdout = w.stdout
  disk_eq : settings.metricsPath = none → v.disk = w.disk
  gains : ∀ m, settings.metricsPath = some m → w.disk.Gains m v.disk
  output : ∀ id, v.disk.file? settings.outputPath = some id →
    ∃ l, w.disk.node? l = some (.file id)

theorem acquireBook_gains (numbered : w.disk.Numbered) (settings : Settings) (now : Moment) :
    (settings.metricsPath = none → (acquireBook settings now w).2.disk = w.disk) ∧
      ∀ m, settings.metricsPath = some m → w.disk.Gains m (acquireBook settings now w).2.disk := by
  rw [acquireBook_world]
  constructor
  · intro hm
    rw [hm]
  · intro m hm
    rw [hm]
    exact MetricFile.acquire_gains m numbered

theorem acquireBook_error {v : World} (h : acquireBook settings now w = (.error f, v)) {p : Path}
    {id : Nat} (hid : v.disk.file? p = some id) : ∃ l, w.disk.node? l = some (.file id) := by
  cases acquires_of_eq h with
  | refused path raised =>
    obtain ⟨l, -, hl⟩ := Disk.node_of_file? hid
    exact ⟨l, (MetricFile.acquire_error raised).furnishes.files l id hl⟩

theorem start_unopened {p : Progress} (numbered : w.disk.Numbered)
    (started : start settings producer schedule plan now w = (p, session, r))
    (ended : p ≠ .goesOn) : Unopened settings w r.world := by
  obtain ⟨hnone, hsome⟩ := acquireBook_gains numbered settings now
  have hstdout := acquireBook_stdout settings now w
  cases starts_of_eq started with
  | bookless refused =>
    rw [refused] at hnone hsome hstdout
    exact ⟨hstdout, hnone, hsome, fun id hid => acquireBook_error refused hid⟩
  | fileless acquired refused =>
    rw [acquired] at hnone hsome hstdout
    refine ⟨hstdout, hnone, hsome, fun id hid => ?_⟩
    have habsent := Disk.file?_of_acquire_error refused
    exact absurd (habsent.symm.trans hid) (by simp)
  | opened => exact absurd rfl ended

variable [Producer γ]

theorem run_unopened {collector : Collector} {span : Span} {p : Progress} (idle : collector.Idle)
    (limit : Option Int) (turns : Nat) (numbered : w.disk.Numbered)
    (started : start settings producer schedule plan span.opening w = (p, session, r))
    (ended : p ≠ .goesOn) :
    run collector settings producer schedule plan limit span turns w = (p, r) ∧
      Unopened settings w r.world :=
  ⟨run_ended idle limit turns started ended, start_unopened numbered started ended⟩

end

section

variable {σ τ : Type} [Source σ] [Clock τ] {settings : Settings} {producer : Generator σ τ}
  {now : Moment} {plan : Plan} {w : World} {session : Session} {r : Run (Generator σ τ)}
  {f : Failure}

/-- Once both files are open, no failure is one to open them, if the clock does not say so. -/
theorem not_opening {n : Nat} {schedule : Schedule}
    (started : start settings producer schedule plan now w = (.goesOn, session, r))
    (clock : ∀ k, ∃ v, (Clock.now (Producer.after k producer).clock).1 = .ok v)
    (explained : Explains settings producer now plan w n f) : ¬f.Opening := by
  cases starts_of_eq started with | @opened book v v' sink hbook opens
  obtain ⟨i, hopen⟩ := Sink.acquire_disk opens
  intro hopening
  obtain ⟨g, hwraps⟩ | ⟨s, -, -, hkind⟩ | rfl | hleaks := explained
  · cases hwraps with
    | metrics path raised =>
      cases acquires_of_eq hbook with
      | unasked unasked => cases path.symm.trans unasked
      | acquired path' made =>
        obtain rfl := Option.some.inj (path.symm.trans path')
        rw [made] at raised
        cases raised
    | output raised =>
      rw [hbook, hopen] at raised
      cases raised
    | sink wraps => cases wraps <;> cases hopening
  · cases hopening <;> cases hkind
  · cases hopening
  · cases hleaks with
    | clock raised =>
      obtain ⟨t, ht⟩ := clock n
      rw [ht] at raised
      cases raised
    | _ => cases hopening

theorem run_opened {collector : Collector} {limit : Option Int} {span : Span} {turns : Nat}
    {schedule : Schedule}
    (started : start settings producer schedule plan span.opening w = (.goesOn, session, r))
    (clock : ∀ k, ∃ v, (Clock.now (Producer.after k producer).clock).1 = .ok v)
    (failed : (run collector settings producer schedule plan limit span turns w).1 = .failed f) :
    ¬f.Opening := by
  have hstart := start_stands settings producer schedule plan span.opening w
  rw [started] at hstart
  obtain ⟨ready, going⟩ := hstart
  have hgo := go_stands span.opening limit turns ready going
  rw [run_started collector limit turns started] at failed
  exact not_opening started clock (close_explained collector session span.closing hgo failed)

end

end Session

end HostTelemetry
