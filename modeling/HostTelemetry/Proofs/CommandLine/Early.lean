import HostTelemetry.CommandLine.Run
import HostTelemetry.Proofs.Simulation.Unopened

/-!
# What an early end leaves behind

A command line whose words or settings are wrong leaves the world as it is. One that cannot get its
files may leave an empty metrics file and folders above it, and nothing else.
-/

set_option autoImplicit false

namespace HostTelemetry.CommandLine

theorem clock_still (s : Settings) (now : Moment) (k : Nat) :
    (Producer.after k (generatorOf s now)).clock = .still now.localTime := by
  suffices h : ∀ g : Generator AnySource AnyClock, g.clock = .still now.localTime →
      (Producer.after k g).clock = .still now.localTime from h _ rfl
  induction k with
  | zero => exact fun g hg => hg
  | succ k ih =>
    intro g hg
    apply ih
    show (Generator.generate g).2.clock = _
    unfold Generator.generate
    rcases Generator.drawAll g.clamp Generator.fields g.source with ⟨_ | xs, source⟩
    · exact hg
    · dsimp only
      rw [hg]
      rfl

/-- The early ends of a command line: at its words, at its settings, or at its files. The settings
are there if they were accepted. -/
inductive EndsEarly (loader : Yaml.Loader) (collector : Collector) (i : Invocation) (turns : Nat)
    (w : World) : Option Settings → Prop
  | words {f : UsageFault} (refused : Request.ofTexts i.words = .error f) :
    EndsEarly loader collector i turns w none
  | settings {flags : Flags} {e : Ending} {said : Text}
    (asked : Request.ofTexts i.words = .ok (.run flags))
    (ended : flags.prepare loader i.environment w.disk.read = .ended e said) :
    EndsEarly loader collector i turns w none
  | files {flags : Flags} {s : Settings} {limit : Option Int} {f : Failure}
    (asked : Request.ofTexts i.words = .ok (.run flags))
    (ready : flags.prepare loader i.environment w.disk.read = .ready s limit)
    (failed : (Session.run collector s (generatorOf s i.span.opening) i.schedule .none limit i.span
      turns (announce s w).2).1 = .failed f)
    (opening : f.Opening) : EndsEarly loader collector i turns w (some s)

variable {loader : Yaml.Loader} {collector : Collector}

theorem run_opening {s : Settings} {schedule : Schedule} {limit : Option Int} {span : Span}
    {turns : Nat} {v : World} {f : Failure} (idle : collector.Idle) (numbered : v.disk.Numbered)
    (failed : (Session.run collector s (generatorOf s span.opening) schedule .none limit span turns
      v).1 = .failed f)
    (opening : f.Opening) :
    Session.Unopened s v (Session.run collector s (generatorOf s span.opening) schedule .none limit
      span turns v).2.world := by
  rcases hs : Session.start s (generatorOf s span.opening) schedule .none span.opening v with
    ⟨p, session, r⟩
  by_cases hp : p = .goesOn
  · have hclock : ∀ k, ∃ t,
        (Clock.now (Producer.after k (generatorOf s span.opening)).clock).1 = .ok t := by
      intro k
      rw [clock_still]
      exact ⟨_, rfl⟩
    rw [hp] at hs
    exact absurd opening (Session.run_opened hs hclock failed)
  · obtain ⟨hrun, hunopened⟩ := Session.run_unopened idle limit turns numbered hs hp
    rw [hrun]
    exact hunopened

theorem prepare_of_words {i : Invocation} {f : UsageFault} (w : World) (read : Settings.Reading)
    (refused : Request.ofTexts i.words = .error f) :
    prepare loader i.words i.environment read w = (Flags.refused f, w) := by
  rw [prepare, refused]

theorem prepare_of_flags {i : Invocation} {flags : Flags} (w : World) (read : Settings.Reading)
    (asked : Request.ofTexts i.words = .ok (.run flags)) :
    prepare loader i.words i.environment read w = (flags.prepare loader i.environment read, w) := by
  rw [prepare, asked]

theorem conclude_world (p : Progress) (w : World) :
    (conclude p w).2.disk = w.disk ∧ (conclude p w).2.stdout = w.stdout := by
  unfold conclude
  split
  · exact ⟨rfl, rfl⟩
  · exact ⟨rfl, rfl⟩
  · split
    · exact ⟨rfl, rfl⟩
    · split <;> exact ⟨rfl, rfl⟩

theorem conclude_opening {f : Failure} (w : World) (h : f.Opening) :
    (conclude (.failed f) w).1 = .exits 1 := by
  cases h <;> rfl

/-- A command line that ends before all it needs is acquired destroys nothing. Every file that was
there keeps its place and its bytes, nothing is written to the output, and the output file is not
made. If the words and settings are accepted, the metrics file and the folders above it may be new,
and empty; otherwise nothing is. -/
theorem Invocation.run_early {i : Invocation} {turns : Nat} {w : World} {accepted : Option Settings}
    (idle : collector.Idle) (numbered : w.disk.Numbered)
    (early : EndsEarly loader collector i turns w accepted) :
    let o := i.run loader collector turns w
    o.world.stdout = w.stdout ∧
      (∀ l id, w.disk.node? l = some (.file id) →
        o.world.disk.node? l = some (.file id) ∧ o.world.disk.content id = w.disk.content id) ∧
      match accepted with
      | none => o.world = w
      | some s => o.ending = .exits 1 ∧
        (∀ id, o.world.disk.file? s.outputPath = some id →
          ∃ l, w.disk.node? l = some (.file id)) ∧
        match s.metricsPath with
        | none => o.world.disk = w.disk
        | some m => w.disk.Gains m o.world.disk := by
  cases early with
  | words refused =>
    rw [run, prepare_of_words w _ refused]
    exact ⟨rfl, fun _ _ h => ⟨h, rfl⟩, rfl⟩
  | settings asked ended =>
    rw [run, prepare_of_flags w _ asked, ended]
    exact ⟨rfl, fun _ _ h => ⟨h, rfl⟩, rfl⟩
  | @files flags s limit f asked ready failed opening =>
    have hunopened := run_opening (v := (announce s w).2) idle numbered failed opening
    rw [run, prepare_of_flags w _ asked, ready]
    dsimp only
    rcases hr : Session.run collector s (generatorOf s i.span.opening) i.schedule .none limit i.span
      turns (announce s w).2 with ⟨p, r⟩
    rw [hr] at failed hunopened
    obtain rfl : p = .failed f := failed
    obtain ⟨hdisk, hstdout⟩ := conclude_world (.failed f) r.world
    have hending := conclude_opening r.world opening
    have hfile : ∀ l id, w.disk.node? l = some (.file id) →
        r.world.disk.node? l = some (.file id) ∧ r.world.disk.content id = w.disk.content id := by
      intro l id hl
      cases hm : s.metricsPath with
      | none =>
        have hsame : r.world.disk = w.disk := hunopened.disk_eq hm
        rw [hsame]
        exact ⟨hl, rfl⟩
      | some m =>
        have hgains : w.disk.Gains m r.world.disk := hunopened.gains m hm
        exact ⟨hgains.extends_ l _ hl, hgains.held l id hl⟩
    rcases hc : conclude (.failed f) r.world with ⟨e, v⟩
    rw [hc] at hdisk hstdout hending
    dsimp only at hdisk hstdout ⊢
    rw [hdisk, hstdout]
    refine ⟨hunopened.stdout_eq, hfile, hending, hunopened.output, ?_⟩
    cases hm : s.metricsPath with
    | none => exact hunopened.disk_eq hm
    | some m => exact hunopened.gains m hm

def noFolder : Invocation :=
  ⟨[lit "--output", lit "d/f", lit "--metrics-file", lit "m"], none, .never, Session.morning, []⟩

def noFolderSettings : Settings :=
  ⟨⟨0, [lit "d", lit "f"]⟩, false, false, some ⟨0, [lit "m"]⟩, .info⟩

theorem noFolder_fails :
    (Session.run Session.keeper noFolderSettings
      (generatorOf noFolderSettings Session.morning.opening) .never .none none Session.morning 1
      (announce noFolderSettings Session.bare).2).1 =
        .failed (.cannotOpen noFolderSettings.outputPath (.system 2 (some (lit "d/f")))) := by
  have hbook : Session.acquireBook noFolderSettings Session.morning.opening
      (announce noFolderSettings Session.bare).2 =
        (.ok (some ⟨⟨⟨0, [lit "m"]⟩⟩, 0⟩), { (announce noFolderSettings Session.bare).2 with
          disk := Disk.empty.create (Disk.here ++ [[109]]) [] }) := by
    simp only [Session.acquireBook, noFolderSettings, announce, World.log, Session.bare,
      MetricFile.acquire_empty]
    rfl
  simp only [Session.run, Session.start, hbook]
  rfl

theorem run_early_noFolder :
    let loader := Yaml.usualReader
    let o := noFolder.run loader Session.keeper 1 Session.bare
    ∃ accepted, Session.keeper.Idle ∧ Session.bare.disk.Numbered ∧
      EndsEarly loader Session.keeper noFolder 1 Session.bare accepted ∧ o.ending = .exits 1 ∧
      Session.bare.disk.Gains ⟨0, [lit "m"]⟩ o.world.disk := by
  intro loader o
  have hearly : EndsEarly loader Session.keeper noFolder 1 Session.bare (some noFolderSettings) :=
    .files (rfl : Request.ofTexts noFolder.words =
        .ok (.run ⟨.none, .text (lit "d/f"), false, false, .none, .text (lit "m"), .none⟩))
      (rfl : Flags.prepare _ _ _ _ = .ready noFolderSettings none) noFolder_fails (.output _ _)
  obtain ⟨-, -, hending, -, hgains⟩ :=
    Invocation.run_early Session.keeper_lawful.idle Disk.empty_numbered hearly
  exact ⟨_, Session.keeper_lawful.idle, Disk.empty_numbered, hearly, hending, hgains⟩

end HostTelemetry.CommandLine
