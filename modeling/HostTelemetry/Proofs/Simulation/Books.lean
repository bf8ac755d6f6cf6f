import HostTelemetry.Proofs.Metric.Meter
import HostTelemetry.Proofs.Sink.Rollback
import HostTelemetry.Simulation.Session

/-!
# The books of a run

A run tries line after line, and each of them meets a fate. While lines are kept the file, the
outlet and the counters all hold the same lines, and the position is at the end of the file; the
first line that is not kept is the last one that is tried.
-/

set_option autoImplicit false

namespace HostTelemetry

open Sink (Fate Leaves keptAll tapeAfter written shown bytesOf recordOf)

namespace Producer

variable {γ : Type} [Producer γ]

def after : (samples : Nat) → γ → γ
  | 0, p => p
  | n + 1, p => after n (produce p).2

def lineAt (p : γ) (k : Nat) : Except Failure Text := (produce (after k p)).1.bind Sample.encode

theorem after_succ (p : γ) (n : Nat) : after (n + 1) p = (produce (after n p)).2 := by
  induction n generalizing p with
  | zero => rfl
  | succ n ih => exact ih _

end Producer

namespace Simulation

variable {γ : Type} [Producer γ]

/-- The line that a step tries, and what becomes of it. -/
def attempt (s : Simulation γ) (w : World) : Text × Fate :=
  match (Producer.produce s.producer).1.bind Sample.encode with
  | .error _ => ([], .untried)
  | .ok line => (line, s.sink.fate line w)

end Simulation

namespace Run

variable {γ : Type} [Producer γ]

def attempts (limit : Option Int) : (turns : Nat) → Run γ → List (Text × Fate)
  | 0, _ => []
  | n + 1, r =>
    if r.stop.isSet then []
    else r.simulation.attempt r.world ::
      match r.turn limit with
      | (.goesOn, r) => attempts limit n r
      | _ => []

/-- What the outlet shows of a line that was lost. -/
def echoed : Option (Text × Fate) → Text
  | none => []
  | some (line, fate) => if fate.isHeard then recordOf line else []

omit [Producer γ] in
theorem echoed_none : echoed none = [] := rfl

/-- A run that began with an open file has kept some lines, and perhaps lost a last one. -/
structure Books (r : Run γ) (h : Handle) (base : Bytes) (lines : List Text)
    (lost : Option (Text × Fate)) (r' : Run γ) : Prop where
  file : ∃ h', r'.simulation.sink.file = some h' ∧
    Leaves h (tapeAfter h.append (keptAll lines ++ lost.toList) ⟨base, base.length⟩)
      r.world h' r'.world
  path_eq : r'.simulation.sink.path = r.simulation.sink.path
  outlet_eq : r'.simulation.sink.outlet = none
  heard : r'.world.stdout.text = r.world.stdout.text ++ shown lines ++ echoed lost
  counted : r'.simulation.sink.bytesWritten = (written lines).length
  emitted_eq : r'.emitted = lines.length
  meter_eq : r'.simulation.meter =
    r.simulation.meter.map fun _ => .counting r.simulation.sink.path.toText lines
  produced : lost = none →
    r'.simulation.producer = Producer.after lines.length r.simulation.producer
  encoded : ∀ k line, lines[k]? = some line → Producer.lineAt r.simulation.producer k = .ok line

theorem Books.same {r r' r'' : Run γ} {h : Handle} {base : Bytes} {lines : List Text}
    {lost : Option (Text × Fate)} (books : Books r h base lines lost r')
    (hs : r''.simulation = r'.simulation) (hd : r''.world.disk = r'.world.disk)
    (ho : r''.world.stdout = r'.world.stdout) (he : r''.emitted = r'.emitted) :
    Books r h base lines lost r'' := by
  obtain ⟨h', hfile, hleft⟩ := books.file
  exact ⟨⟨h', by rw [hs, hfile], hleft.follows, hleft.position, by rw [hd, hleft.disk]⟩,
    by rw [hs, books.path_eq], by rw [hs, books.outlet_eq], by rw [ho, books.heard],
    by rw [hs, books.counted], by rw [he, books.emitted_eq], by rw [hs, books.meter_eq],
    by rw [hs]; exact books.produced, books.encoded⟩

omit [Producer γ] in
theorem count_books (lines : List Text) (line : Text) (output : Text) (meter : Option Meter)
    (s : Simulation γ) (hpath : s.sink.path.toText = output)
    (hmeter : s.meter = meter.map fun _ => .counting output lines) :
    s.count (bytesOf line).length =
      { s with meter := meter.map fun _ => .counting output (lines ++ [line]) } := by
  subst hpath
  rw [Simulation.count, hmeter]
  cases meter with
  | none => rfl
  | some m => rw [Option.map_some, Option.map_some, Option.map_some, Meter.record_counting]

theorem attempt_error {s : Simulation γ} {f : Failure} (w : World)
    (hmade : (Producer.produce s.producer).1.bind Sample.encode = .error f) :
    s.attempt w = ([], .untried) := by
  simp [Simulation.attempt, hmade]

theorem attempt_ok {s : Simulation γ} {line : Text} (w : World)
    (hmade : (Producer.produce s.producer).1.bind Sample.encode = .ok line) :
    s.attempt w = (line, s.sink.fate line w) := by
  simp [Simulation.attempt, hmade]

theorem Books.unmade {r r' : Run γ} {h : Handle} {base : Bytes} {lines : List Text} {p : γ}
    {stop : Stop} (books : Books r h base lines none r') :
    Books r h base lines (some ([], .untried))
      { r' with simulation := { r'.simulation with producer := p }, stop := stop } := by
  obtain ⟨h', hfile, hleft⟩ := books.file
  constructor
  case file =>
    have htape : tapeAfter h.append (keptAll lines ++ [([], .untried)]) ⟨base, base.length⟩ =
        tapeAfter h.append (keptAll lines) ⟨base, base.length⟩ := by
      rw [Sink.tapeAfter_append]
      rfl
    rw [Option.toList_none, List.append_nil] at hleft
    rw [Option.toList_some, htape]
    exact ⟨h', hfile, hleft⟩
  case path_eq => exact books.path_eq
  case outlet_eq => exact books.outlet_eq
  case heard => exact books.heard
  case counted => exact books.counted
  case emitted_eq => exact books.emitted_eq
  case meter_eq => exact books.meter_eq
  case produced =>
    intro hnone
    cases hnone
  case encoded => exact books.encoded

structure Given (r : Run γ) (h : Handle) (base : Bytes) (lines : List Text) (line : Text)
    (fate : Fate) (sink : Sink) (w : World) : Prop where
  file : ∃ h', sink.file = some h' ∧
    Leaves h (tapeAfter h.append (keptAll lines ++ [(line, fate)]) ⟨base, base.length⟩)
      r.world h' w
  path_eq : sink.path = r.simulation.sink.path
  outlet_eq : sink.outlet = none
  heard : w.stdout.text = r.world.stdout.text ++ shown lines ++ echoed (some (line, fate))
  counted : sink.bytesWritten =
    (written lines).length + (if fate = .kept then (bytesOf line).length else 0)

theorem Books.give {r r' : Run γ} {h : Handle} {base : Bytes} {lines : List Text}
    (hopen : h.closed = false) (books : Books r h base lines none r') (line : Text) :
    ∃ answer sink w, r'.simulation.sink.emit line r'.world = (answer, sink, w) ∧
      Given r h base lines line (r'.simulation.sink.fate line r'.world) sink w ∧
      match answer with
      | .ok size => r'.simulation.sink.fate line r'.world = .kept ∧ size = (bytesOf line).length
      | .error _ => r'.simulation.sink.fate line r'.world ≠ .kept := by
  obtain ⟨h', hfile, hleft⟩ := books.file
  have hopen' : h'.closed = false := hleft.follows.closed_eq.trans hopen
  obtain ⟨answer, sink, w, h'', hemit, hfile', hleft', hcounts⟩ :=
    Sink.emit_fate line h' r'.simulation.sink r'.world hfile hopen'
  generalize r'.simulation.sink.fate line r'.world = fate at hleft' hcounts ⊢
  rw [hleft.tape, hleft.follows.append_eq] at hleft'
  have houtlet : sink.outlet = none := by
    have hsome := hcounts.outlet_eq
    rw [books.outlet_eq] at hsome
    simpa using hsome
  have hheard : w.stdout.text = r'.world.stdout.text ++
      (if fate.isHeard then recordOf line else []) := by
    simpa [Sink.outletOf, houtlet, books.outlet_eq] using hcounts.heard
  have hgiven : Given r h base lines line fate sink w := by
    constructor
    case file =>
      rw [Sink.tapeAfter_append]
      exact ⟨h'', hfile', by simpa [tapeAfter] using hleft.trans hleft'⟩
    case path_eq => exact hcounts.path_eq.trans books.path_eq
    case outlet_eq => exact houtlet
    case heard =>
      rw [hheard, books.heard, echoed_none, List.append_nil]
      rfl
    case counted => rw [hcounts.counted, books.counted]
  exact ⟨answer, sink, w, hemit, hgiven, hcounts.answer⟩

theorem Books.keep {r r' : Run γ} {h : Handle} {base : Bytes} {lines : List Text} {line : Text}
    {sink : Sink} {w : World} (books : Books r h base lines none r')
    (hmade : (Producer.produce r'.simulation.producer).1.bind Sample.encode = .ok line)
    (given : Given r h base lines line .kept sink w) :
    Books r h base (lines ++ [line]) none
      ⟨⟨(Producer.produce r'.simulation.producer).2, sink, r.simulation.meter.map fun _ =>
        .counting r.simulation.sink.path.toText (lines ++ [line])⟩, w, r'.stop.sampled,
        r'.emitted + 1⟩ := by
  have hproducer := books.produced rfl
  obtain ⟨h', hfile, hleft⟩ := given.file
  constructor
  case file => exact ⟨h', hfile, by simpa [keptAll] using hleft⟩
  case path_eq => exact given.path_eq
  case outlet_eq => exact given.outlet_eq
  case heard =>
    dsimp only
    rw [given.heard, Sink.shown_append]
    simp [echoed, Fate.isHeard]
  case counted =>
    dsimp only
    rw [given.counted, if_pos rfl, Sink.written_append, List.length_append]
  case emitted_eq => simp [books.emitted_eq]
  case meter_eq => rfl
  case produced =>
    intro _
    rw [List.length_append, List.length_singleton, Producer.after_succ, ← hproducer]
  case encoded =>
    intro k l hk
    rcases Nat.lt_or_ge k lines.length with hlt | hge
    · rw [List.getElem?_append_left hlt] at hk
      exact books.encoded k l hk
    · rw [List.getElem?_append_right hge, List.getElem?_singleton] at hk
      split at hk
      · obtain rfl : k = lines.length := by omega
        rw [Producer.lineAt, ← hproducer, hmade, Option.some.inj hk]
      · cases hk

theorem Books.lose {r r' : Run γ} {h : Handle} {base : Bytes} {lines : List Text} {line : Text}
    {fate : Fate} {sink : Sink} {w : World} {p : γ} {stop : Stop}
    (books : Books r h base lines none r') (given : Given r h base lines line fate sink w)
    (hlost : fate ≠ .kept) :
    Books r h base lines (some (line, fate))
      ⟨⟨p, sink, r'.simulation.meter⟩, w, stop, r'.emitted⟩ := by
  constructor
  case file => exact given.file
  case path_eq => exact given.path_eq
  case outlet_eq => exact given.outlet_eq
  case heard => exact given.heard
  case counted =>
    dsimp only
    rw [given.counted, if_neg hlost, Nat.add_zero]
  case emitted_eq => exact books.emitted_eq
  case meter_eq => exact books.meter_eq
  case produced =>
    intro hnone
    cases hnone
  case encoded => exact books.encoded

/-- A step keeps its line in all books, or loses it and fails. -/
theorem emit_books {r r' : Run γ} {h : Handle} {base : Bytes} {lines : List Text}
    (hopen : h.closed = false) (books : Books r h base lines none r') :
    let tried := r'.simulation.attempt r'.world
    (tried.2 = .kept ∧ ∃ r'', r'.emit = (.ok (), r'') ∧
        Books r h base (lines ++ [tried.1]) none r'') ∨
      (tried.2 ≠ .kept ∧ ∃ f r'', r'.emit = (.error f, r'') ∧
        Books r h base lines (some tried) r'') := by
  cases hmade : (Producer.produce r'.simulation.producer).1.bind Sample.encode with
  | error f =>
    right
    rw [attempt_error r'.world hmade]
    have hemit : r'.emit = (.error f, { r' with
        simulation := { r'.simulation with
          producer := (Producer.produce r'.simulation.producer).2 },
        stop := r'.stop.sampled }) := by
      simp only [emit, Simulation.step, hmade]
    exact ⟨by simp, f, _, hemit, books.unmade⟩
  | ok line =>
    rw [attempt_ok r'.world hmade]
    obtain ⟨answer, sink, w, hsink, given, hanswer⟩ := books.give hopen line
    cases answer with
    | error f =>
      right
      have hemit : r'.emit = (.error f, ⟨⟨(Producer.produce r'.simulation.producer).2, sink,
          r'.simulation.meter⟩, w, r'.stop.sampled, r'.emitted⟩) := by
        simp only [emit, Simulation.step, hmade, hsink]
      exact ⟨hanswer, f, _, hemit, books.lose given hanswer⟩
    | ok size =>
      left
      obtain ⟨hkept, rfl⟩ := hanswer
      rw [hkept] at given ⊢
      have hcount := count_books lines line r.simulation.sink.path.toText r.simulation.meter
        { r'.simulation with producer := (Producer.produce r'.simulation.producer).2, sink := sink }
        (by rw [given.path_eq]) books.meter_eq
      have hemit : ∃ r'', r'.emit = (.ok (), r'') ∧ Books r h base (lines ++ [line]) none r'' := by
        simp only [emit, Simulation.step, hmade, hsink, hcount]
        exact ⟨_, rfl, (books.keep hmade given).same rfl rfl rfl rfl⟩
      exact ⟨rfl, hemit⟩

structure Ends (p : Progress) (lost : Option (Text × Fate)) (r : Run γ) : Prop where
  failed : ∀ a, lost = some a → a.2 ≠ .kept ∧ ∃ f, p = .failed f
  number : ∀ n, p = .returned n → n = r.emitted

omit [Producer γ] in
theorem Ends.lost_none {lost : Option (Text × Fate)} {r : Run γ} (h : Ends .goesOn lost r) :
    lost = none := by
  rcases hl : lost with _ | a
  · rfl
  · obtain ⟨f, hf⟩ := (h.failed a hl).2
    cases hf

theorem turn_books {r r' : Run γ} {h : Handle} {base : Bytes} {lines : List Text}
    (limit : Option Int) (hopen : h.closed = false) (hstop : r'.stop.isSet = false)
    (books : Books r h base lines none r') :
    ∃ p r'' more lost, r'.turn limit = (p, r'') ∧ Books r h base (lines ++ more) lost r'' ∧
      [r'.simulation.attempt r'.world] = keptAll more ++ lost.toList ∧ Ends p lost r'' := by
  generalize htried : r'.simulation.attempt r'.world = tried
  have hemit := emit_books hopen books
  rw [htried] at hemit
  rcases hemit with ⟨hkept, r1, hemit, hbooks⟩ | ⟨hlost, f, r1, hemit, hbooks⟩
  · obtain ⟨line, rfl⟩ : ∃ line, tried = (line, Fate.kept) := ⟨tried.1, by rw [← hkept]⟩
    by_cases hfull : isFull limit r1.emitted
    · have hturn : r'.turn limit = (.returned r1.emitted, r1.finish.2) := by
        simp [turn, hstop, hemit, hfull, finish]
      exact ⟨_, _, [line], none, hturn, hbooks.same rfl rfl rfl rfl, rfl, by simp, by simp [finish]⟩
    · rcases hwait : r1.stop.wait interval with ⟨answer, stop⟩
      cases answer with
      | error f =>
        have hturn : r'.turn limit = (.failed (.passed f), { r1 with stop := stop }) := by
          simp [turn, hstop, hemit, hfull, hwait]
        exact ⟨_, _, [line], none, hturn, hbooks.same rfl rfl rfl rfl, rfl, by simp, by simp⟩
      | ok u =>
        have hturn : r'.turn limit = (.goesOn, { r1 with stop := stop }) := by
          simp [turn, hstop, hemit, hfull, hwait]
        exact ⟨_, _, [line], none, hturn, hbooks.same rfl rfl rfl rfl, rfl, by simp, by simp⟩
  · have hturn : r'.turn limit = (.failed f, r1) := by simp [turn, hstop, hemit]
    have hends : Ends (.failed f) (some tried) r1 := by
      constructor
      case failed =>
        intro a ha
        obtain rfl := Option.some.inj ha
        exact ⟨hlost, f, rfl⟩
      case number =>
        intro n hn
        cases hn
    exact ⟨_, r1, [], some tried, hturn, by rwa [List.append_nil], rfl, hends⟩

theorem attempts_succ {r r' : Run γ} {p : Progress} (limit : Option Int) (turns : Nat)
    (hstop : r.stop.isSet = false) (hturn : r.turn limit = (p, r')) :
    attempts limit (turns + 1) r = r.simulation.attempt r.world ::
      (match p with
      | .goesOn => attempts limit turns r'
      | _ => []) := by
  cases p <;> simp [attempts, hstop, hturn]

theorem go_books {r r' : Run γ} {h : Handle} {base : Bytes} {lines : List Text}
    (limit : Option Int) (turns : Nat) (hopen : h.closed = false)
    (books : Books r h base lines none r') :
    ∃ p r'' more lost, go limit turns r' = (p, r'') ∧ Books r h base (lines ++ more) lost r'' ∧
      attempts limit turns r' = keptAll more ++ lost.toList ∧ Ends p lost r'' := by
  induction turns generalizing r' lines with
  | zero =>
    exact ⟨.goesOn, r', [], none, rfl, by rwa [List.append_nil], rfl, by simp, by simp⟩
  | succ turns ih =>
    by_cases hstop : r'.stop.isSet
    · have hgo : go limit (turns + 1) r' = (.returned r'.emitted, r'.finish.2) := by
        simp [go, turn, hstop, finish]
      have hbooks : Books r h base (lines ++ []) none r'.finish.2 := by
        rw [List.append_nil]
        exact books.same rfl rfl rfl rfl
      exact ⟨_, _, [], none, hgo, hbooks, by simp [attempts, hstop, keptAll], by simp,
        by simp [finish]⟩
    · obtain ⟨p, r1, more, lost, hturn, hbooks, htried, hends⟩ :=
        turn_books limit hopen (by simpa using hstop) books
      have hattempts := attempts_succ limit turns (by simpa using hstop) hturn
      rw [← List.singleton_append, htried] at hattempts
      -- Only a turn that goes on is followed by others, and then nothing is lost so far.
      cases p with
      | goesOn =>
        obtain rfl := hends.lost_none
        obtain ⟨p, r2, rest, lost, hgo, hbooks2, htried2, hends2⟩ := ih hbooks
        have htries : attempts limit (turns + 1) r' = keptAll (more ++ rest) ++ lost.toList := by
          rw [hattempts, htried2]
          simp [keptAll]
        exact ⟨p, r2, more ++ rest, lost, by simp [go, hturn, hgo], by rwa [← List.append_assoc],
          htries, hends2⟩
      | returned n =>
        rw [List.append_nil] at hattempts
        exact ⟨.returned n, r1, more, lost, by simp [go, hturn], hbooks, hattempts, hends⟩
      | failed f =>
        rw [List.append_nil] at hattempts
        exact ⟨.failed f, r1, more, lost, by simp [go, hturn], hbooks, hattempts, hends⟩

end Run

end HostTelemetry
