import HostTelemetry.Proofs.Disk.Lines
import HostTelemetry.Proofs.Simulation.Cadence
import HostTelemetry.Proofs.Simulation.Interrupt
import HostTelemetry.Proofs.Sink.Life

/-!
# What a run adds

A record ends one line, and what is left of a torn one ends none. So with every sample that is tried
a file gains at most one line, and the outlet at most one record, whatever fails and wherever the
sink stands in its file.
-/

set_option autoImplicit false

namespace HostTelemetry

open Text (Within)

namespace Sink

theorem lineEnds_bytesOf {line : Text} (h : Within 32 126 line) : lineEnds (bytesOf line) = 1 := by
  have hnone : lineEnds (lineBytes line) = 0 :=
    List.count_eq_zero_of_not_mem (not_mem_lineBytes h)
  rw [bytesOf_eq, lineEnds_append, hnone]
  rfl

theorem lineEnds_torn {line : Text} (h : Within 32 126 line) {taken : Nat}
    (hshort : taken < (bytesOf line).length) : lineEnds ((bytesOf line).take taken) = 0 := by
  rw [bytesOf_eq, List.length_append, List.length_singleton] at hshort
  rw [bytesOf_eq, List.take_append_of_le_length (by omega)]
  exact List.count_eq_zero_of_not_mem fun hmem => not_mem_lineBytes h (List.mem_of_mem_take hmem)

theorem Fate.lineEnds_tape {line : Text} {fate : Fate} (sound : Sound (line, fate)) (append : Bool)
    (t : Tape) : lineEnds (fate.tape append (bytesOf line) t).bytes ≤ lineEnds t.bytes + 1 := by
  by_cases htried : fate = .untried
  · rw [htried]
    exact Nat.le_succ _
  · obtain ⟨hvisible, hcut⟩ := sound htried
    have hwhole := t.lineEnds_put append (bytesOf line)
    rw [lineEnds_bytesOf hvisible] at hwhole
    cases fate with
    | untried => exact absurd rfl htried
    | cut taken undone =>
      have htorn := t.lineEnds_put append ((bytesOf line).take taken)
      rw [lineEnds_torn hvisible (hcut taken undone rfl)] at htorn
      cases undone with
      | false => exact Nat.le_succ_of_le htorn
      | true => exact Nat.le_succ_of_le ((lineEnds_resized _ _).trans htorn)
    | _ => exact hwhole

/-- Between two states of a sink and the world every file has gained at most `k` lines, and the
outlet at most `k` records. No file has come or gone. -/
structure Grows (k : Nat) (s : Sink) (w : World) (s' : Sink) (w' : World) : Prop where
  nodes : w'.disk.nodes = w.disk.nodes
  files : ∀ id, lineEnds (w'.disk.content id) ≤ lineEnds (w.disk.content id) + k
  outlet : s'.outlet.isSome = s.outlet.isSome
  heard : ∃ records : List Record, records.length ≤ k ∧
    (s'.outletOf w').text = (s.outletOf w).text ++ shown (records.map Record.line)

theorem Grows.refl (k : Nat) (s : Sink) (w : World) : Grows k s w s w :=
  ⟨rfl, fun _ => Nat.le_add_right _ k, rfl, [], Nat.zero_le k, (List.append_nil _).symm⟩

theorem Grows.same {k : Nat} {s s' s'' : Sink} {w w' w'' : World} (a : Grows k s w s' w')
    (hs : s''.outlet = s'.outlet) (hd : w''.disk = w'.disk) (ho : w''.stdout = w'.stdout) :
    Grows k s w s'' w'' := by
  have houtlet : s''.outletOf w'' = s'.outletOf w' := by rw [outletOf, outletOf, hs, ho]
  exact ⟨by rw [hd, a.nodes], by rw [hd]; exact a.files, by rw [hs, a.outlet],
    by rw [houtlet]; exact a.heard⟩

theorem Grows.trans {j k : Nat} {s s' s'' : Sink} {w w' w'' : World} (a : Grows j s w s' w')
    (b : Grows k s' w' s'' w'') : Grows (j + k) s w s'' w'' := by
  constructor
  case nodes => exact b.nodes.trans a.nodes
  case files =>
    intro id
    have ha := a.files id
    have hb := b.files id
    omega
  case outlet => exact b.outlet.trans a.outlet
  case heard =>
    obtain ⟨rs, hrs, ha⟩ := a.heard
    obtain ⟨rs', hrs', hb⟩ := b.heard
    refine ⟨rs ++ rs', ?_, ?_⟩
    · rw [List.length_append]
      omega
    · rw [hb, ha, List.append_assoc, List.map_append, shown, shown, shown, List.flatMap_append]

theorem emit_untold (k : Nat) (line : Text) {h h₀ : Handle} {f : Fault} {s : Sink} (w : World)
    (hfile : s.file = some h) (htell : h.tell = (.error f, h₀)) :
    Grows k s w (s.emit line w).2.1 (s.emit line w).2.2 := by
  simp only [emit, hfile, htell]
  cases Utf8.encode (line ++ [10]) with
  | error u => exact .refl k s w
  | ok data => exact (Grows.refl k s w).same rfl rfl rfl

theorem tell_closed {h : Handle} (hclosed : h.closed = true) :
    ∃ f h₀, h.tell = (.error f, h₀) := by
  unfold Handle.tell Handle.guarded
  dsimp only
  split
  · exact ⟨_, _, rfl⟩
  · rw [if_pos hclosed]
    exact ⟨_, _, rfl⟩

/-- A record that is given to a sink adds at most itself: under any plan, with the position
anywhere, and also to a sink that is not open. -/
theorem emit_grows (record : Record) (s : Sink) (w : World) :
    Grows 1 s w (s.emit record.line w).2.1 (s.emit record.line w).2.2 := by
  cases hfile : s.file with
  | none =>
    rw [emit_isClosed (by rw [isClosed, hfile]; rfl)]
    exact .refl 1 s w
  | some h =>
    cases hclosed : h.closed with
    | true =>
      obtain ⟨f, h₀, htell⟩ := tell_closed hclosed
      exact emit_untold 1 record.line w hfile htell
    | false =>
      obtain ⟨r, s', w', h', hemit, -, hleaves, hcounts⟩ :=
        emit_fate record.line h s w hfile hclosed
      have hsound := fate_sound (w := w) record.line_visible hfile hclosed
      rw [hemit]
      constructor
      case nodes => rw [hleaves.disk]; rfl
      case files =>
        intro id
        rw [hleaves.disk]
        by_cases hid : id = h.id
        · rw [hid, Disk.setContent_content]
          exact Fate.lineEnds_tape hsound h.append (h.tape w.disk)
        · rw [Disk.setContent_other _ _ _ _ hid]
          exact Nat.le_succ _
      case outlet => exact hcounts.outlet_eq
      case heard =>
        have hheard := hcounts.heard
        split at hheard
        · exact ⟨[record], Nat.le_refl 1, by rw [hheard]; simp [shown]⟩
        · exact ⟨[], Nat.zero_le 1, hheard⟩

end Sink

theorem Simulation.step_grows {γ : Type} [Producer γ] (s : Simulation γ) (w : World) :
    Sink.Grows 1 s.sink w (s.step w).2.1.sink (s.step w).2.2 := by
  unfold step
  dsimp only
  cases hmade : (Producer.produce s.producer).1.bind Sample.encode with
  | error f => exact .refl 1 s.sink w
  | ok line =>
    obtain ⟨record, rfl⟩ := Producer.exists_record hmade
    have hgrows := Sink.emit_grows record s.sink w
    dsimp only
    rcases hemit : s.sink.emit record.line w with ⟨_ | size, sink, w'⟩
    · rw [hemit] at hgrows
      exact hgrows
    · rw [hemit] at hgrows
      exact hgrows

namespace Run

variable {γ : Type} [Producer γ]

/-- A run has come from one state to another with at most `k` records, and at most `k` samples more
than it had. -/
structure Grows (k : Nat) (r r' : Run γ) : Prop where
  output : Sink.Grows k r.simulation.sink r.world r'.simulation.sink r'.world
  emitted : r'.emitted ≤ r.emitted + k

omit [Producer γ] in
theorem Grows.refl (k : Nat) (r : Run γ) : Grows k r r :=
  ⟨.refl k r.simulation.sink r.world, Nat.le_add_right _ k⟩

omit [Producer γ] in
theorem Grows.same {k : Nat} {r r' r'' : Run γ} (a : Grows k r r')
    (hs : r''.simulation = r'.simulation) (hd : r''.world.disk = r'.world.disk)
    (ho : r''.world.stdout = r'.world.stdout) (he : r''.emitted = r'.emitted) : Grows k r r'' :=
  ⟨a.output.same (by rw [hs]) hd ho, by rw [he]; exact a.emitted⟩

omit [Producer γ] in
theorem Grows.trans {j k : Nat} {r r' r'' : Run γ} (a : Grows j r r') (b : Grows k r' r'') :
    Grows (j + k) r r'' := by
  have ha := a.emitted
  have hb := b.emitted
  exact ⟨a.output.trans b.output, by omega⟩

omit [Producer γ] in
theorem Grows.emitted_le {k : Nat} {r r' : Run γ} (a : Grows k r r') (hnew : r.emitted = 0) :
    r'.emitted ≤ k := by
  have hemitted := a.emitted
  rwa [hnew, Nat.zero_add] at hemitted

theorem emit_grows (r : Run γ) : Grows 1 r r.emit.2 := by
  have hstep := r.simulation.step_grows r.world
  unfold emit
  rcases hmade : r.simulation.step r.world with ⟨_ | line, s, w⟩
  · rw [hmade] at hstep
    exact ⟨hstep, Nat.le_succ _⟩
  · rw [hmade] at hstep
    exact ⟨hstep.same rfl rfl rfl, Nat.le_refl _⟩

/-- How a turn ends: it returns the number of samples, or goes on below the limit. -/
structure Turned (limit : Option Int) (p : Progress) (r r' : Run γ) : Prop where
  number : ∀ m, p = .returned m → m = r'.emitted
  below : p = .goesOn → r'.emitted = r.emitted + 1 ∧ isFull limit r'.emitted = false

theorem turn_grows (limit : Option Int) {r : Run γ} (hstop : r.stop.isSet = false) :
    ∃ p r', r.turn limit = (p, r') ∧ Grows 1 r r' ∧ Turned limit p r r' := by
  have hgrows := emit_grows r
  unfold turn
  rw [if_neg (by rw [hstop]; decide)]
  rcases hemit : r.emit with ⟨_ | _, r₁⟩
  · rw [hemit] at hgrows
    exact ⟨_, _, rfl, hgrows, nofun, nofun⟩
  · rw [hemit] at hgrows
    dsimp only
    by_cases hfull : isFull limit r₁.emitted
    · rw [if_pos hfull]
      refine ⟨_, _, rfl, hgrows.same rfl rfl rfl rfl, ?_, nofun⟩
      rintro m ⟨⟩
      rfl
    · rw [if_neg hfull]
      have hmore : r₁.emitted = r.emitted + 1 := (emit_stop hemit).2
      rcases r₁.stop.wait interval with ⟨_ | _, stop⟩
      · exact ⟨_, _, rfl, hgrows.same rfl rfl rfl rfl, nofun, nofun⟩
      · exact ⟨_, _, rfl, hgrows.same rfl rfl rfl rfl, nofun,
          fun _ => ⟨hmore, by simpa using hfull⟩⟩

theorem go_grows (limit : Option Int) (turns : Nat) (r : Run γ) :
    ∃ p r', r.go limit turns = (p, r') ∧ Grows (r.attempts limit turns).length r r' ∧
      ∀ m, p = .returned m → m = r'.emitted := by
  induction turns generalizing r with
  | zero => exact ⟨.goesOn, r, rfl, .refl 0 r, by rintro m ⟨⟩⟩
  | succ turns ih =>
    cases hstop : r.stop.isSet with
    | true =>
      have hgo : r.go limit (turns + 1) = (.returned r.emitted, r.finish.2) := by
        simp [go, turn, hstop, finish]
      rw [attempts, if_pos hstop]
      refine ⟨_, _, hgo, (Grows.refl 0 r).same rfl rfl rfl rfl, ?_⟩
      rintro m ⟨⟩
      rfl
    | false =>
      obtain ⟨p, r₁, hturn, hgrows, hturned⟩ := turn_grows limit hstop
      rw [go, hturn, attempts_succ limit turns hstop hturn, List.length_cons, Nat.add_comm]
      cases p with
      | goesOn =>
        obtain ⟨p, r₂, hgo, hmore, hnumber⟩ := ih r₁
        exact ⟨p, r₂, hgo, hgrows.trans hmore, hnumber⟩
      | returned m => exact ⟨_, r₁, rfl, hgrows, hturned.number⟩
      | failed f => exact ⟨.failed f, r₁, rfl, hgrows, by rintro m ⟨⟩⟩

end Run

end HostTelemetry
