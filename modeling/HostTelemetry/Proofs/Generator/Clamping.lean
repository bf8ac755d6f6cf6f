import HostTelemetry.Generator
import HostTelemetry.Proofs.Distribution.Bounded
import HostTelemetry.Proofs.Simulation.Books

/-!
# Clamping moves numbers and nothing else

A generator that clamps makes the draws of one that does not. Started from one state of the source
and the clock, both are in one state after every call, fail at the same calls, and make samples of
the same times, in which only numbers outside of their bounds differ.
-/

set_option autoImplicit false

namespace HostTelemetry

open Distribution (bounded)

def Value.Clamps (high : Option Number) (v w : Value) : Prop :=
  ∃ x y, v = .ofNumber x ∧ w = .ofNumber y ∧ Number.Clamps (Generator.whole 0) high x y

structure Sample.Clamps (free held : Sample) : Prop where
  time : held.time = free.time
  cpu : Value.Clamps (some (Generator.whole 100)) free.cpu held.cpu
  memory : Value.Clamps (some (Generator.whole 100)) free.memory held.memory
  disk : Value.Clamps (some (Generator.whole 100)) free.disk held.disk
  network : Value.Clamps none free.network held.network

namespace Generator

theorem whole_lt : (whole 0).lt (whole 100) = true := by decide +kernel

theorem percent_clamps (x : Number) :
    Number.Clamps (whole 0) (some (whole 100)) x
      (bounded (some (whole 0)) (some (whole 100)) x) := by
  obtain ⟨p, -, hp, -⟩ := (Number.lt_iff _ _).1 whole_lt
  exact Number.bounded_clamps hp (fun b hb => Option.some.inj hb ▸ whole_lt) x

theorem floor_clamps (x : Number) :
    Number.Clamps (whole 0) none x (bounded (some (whole 0)) none x) := by
  obtain ⟨p, -, hp, -⟩ := (Number.lt_iff _ _).1 whole_lt
  exact Number.bounded_clamps hp (fun b hb => by cases hb) x

variable {σ τ : Type} [Source σ] [Clock τ]

def clampAll (ds : List (Distribution × Option Number)) (xs : List Number) : List Number :=
  List.zipWith (fun d x => bounded (some (whole 0)) d.2 x) ds xs

theorem draw_clamped (d : Distribution) (high : Option Number) (s : σ) :
    draw true d high s =
      ((draw false d high s).1.map (bounded (some (whole 0)) high), (draw false d high s).2) := rfl

theorem drawAll_clamped (ds : List (Distribution × Option Number)) (s : σ) :
    drawAll true ds s = ((drawAll false ds s).1.map (clampAll ds), (drawAll false ds s).2) := by
  induction ds generalizing s with
  | nil => rfl
  | cons d ds ih =>
    obtain ⟨d, high⟩ := d
    rw [drawAll, drawAll, draw_clamped]
    rcases draw false d high s with ⟨f | x, s⟩
    · rfl
    · simp only [Except.map]
      rw [ih]
      rcases drawAll false ds s with ⟨f | xs, s⟩ <;> rfl

theorem drawAll_length {clamp : Bool} {ds : List (Distribution × Option Number)} {s s' : σ}
    {xs : List Number} (h : drawAll clamp ds s = (.ok xs, s')) : xs.length = ds.length := by
  induction ds generalizing s xs with
  | nil =>
    cases h
    rfl
  | cons d ds ih =>
    obtain ⟨d, high⟩ := d
    rw [drawAll] at h
    generalize draw clamp d high s = first at h
    rcases first with ⟨f | x, t⟩
    · cases h
    · dsimp only at h
      rcases hrest : drawAll clamp ds t with ⟨f | ys, t'⟩
      · rw [hrest] at h
        cases h
      · rw [hrest] at h
        cases h
        rw [List.length_cons, List.length_cons, ih hrest]

theorem exists_four {xs : List Number} (h : xs.length = 4) : ∃ a b c d, xs = [a, b, c, d] := by
  rcases xs with _ | ⟨a, _ | ⟨b, _ | ⟨c, _ | ⟨d, _ | ⟨e, xs⟩⟩⟩⟩⟩
  case cons.cons.cons.cons.nil => exact ⟨a, b, c, d, rfl⟩
  all_goals simp at h

theorem sampleOf_clamps {xs : List Number} (h : xs.length = fields.length) (time : Value) :
    (sampleOf xs time).Clamps (sampleOf (clampAll fields xs) time) := by
  obtain ⟨cpu, memory, disk, network, rfl⟩ := exists_four h
  have hheld : clampAll fields [cpu, memory, disk, network] =
      [bounded (some (whole 0)) (some (whole 100)) cpu,
        bounded (some (whole 0)) (some (whole 100)) memory,
        bounded (some (whole 0)) (some (whole 100)) disk,
        bounded (some (whole 0)) none network] := rfl
  rw [hheld]
  constructor
  case time => rfl
  case cpu => exact ⟨cpu, _, rfl, rfl, percent_clamps cpu⟩
  case memory => exact ⟨memory, _, rfl, rfl, percent_clamps memory⟩
  case disk => exact ⟨disk, _, rfl, rfl, percent_clamps disk⟩
  case network => exact ⟨network, _, rfl, rfl, floor_clamps network⟩

/-- The answers of two calls: one failure, or a sample and the clamped one. -/
inductive Answers : Except Failure Sample → Except Failure Sample → Prop
  | fails (f : Failure) : Answers (.error f) (.error f)
  | makes {free held : Sample} (clamps : free.Clamps held) : Answers (.ok free) (.ok held)

theorem produce_clamped (s : σ) (c : τ) :
    ∃ s' c', (Producer.produce (⟨s, c, false⟩ : Generator σ τ)).2 = ⟨s', c', false⟩ ∧
      (Producer.produce (⟨s, c, true⟩ : Generator σ τ)).2 = ⟨s', c', true⟩ ∧
      Answers (Producer.produce (⟨s, c, false⟩ : Generator σ τ)).1
        (Producer.produce (⟨s, c, true⟩ : Generator σ τ)).1 := by
  have hproduce : ∀ g : Generator σ τ, Producer.produce g = generate g := fun _ => rfl
  rw [hproduce, hproduce, generate, generate]
  dsimp only
  rw [drawAll_clamped]
  rcases hdraw : drawAll false fields s with ⟨f | xs, s'⟩
  · exact ⟨s', c, rfl, rfl, .fails _⟩
  · have hlength := drawAll_length hdraw
    simp only [Except.map]
    rcases Clock.now c with ⟨f | time, c'⟩
    · exact ⟨s', c', rfl, rfl, .fails f⟩
    · exact ⟨s', c', rfl, rfl, .makes (sampleOf_clamps hlength time)⟩

theorem after_clamped (s : σ) (c : τ) (n : Nat) :
    ∃ s' c', Producer.after n (⟨s, c, false⟩ : Generator σ τ) = ⟨s', c', false⟩ ∧
      Producer.after n (⟨s, c, true⟩ : Generator σ τ) = ⟨s', c', true⟩ := by
  induction n generalizing s c with
  | zero => exact ⟨s, c, rfl, rfl⟩
  | succ n ih =>
    obtain ⟨s', c', hfree, hheld, -⟩ := produce_clamped s c
    rw [Producer.after, Producer.after, hfree, hheld]
    exact ih s' c'

/-- A clamping generator and a free one that start from one state of any source and any clock stay
in one state of both, whatever is drawn and shown. Call for call they fail in the same way, or make
samples that differ only in that the clamped one is moved to its bounds. -/
theorem run_clamped (s : σ) (c : τ) (n : Nat) :
    (Producer.after n (⟨s, c, true⟩ : Generator σ τ)).source =
        (Producer.after n (⟨s, c, false⟩ : Generator σ τ)).source ∧
      (Producer.after n (⟨s, c, true⟩ : Generator σ τ)).clock =
        (Producer.after n (⟨s, c, false⟩ : Generator σ τ)).clock ∧
      Answers (Producer.produce (Producer.after n (⟨s, c, false⟩ : Generator σ τ))).1
        (Producer.produce (Producer.after n (⟨s, c, true⟩ : Generator σ τ))).1 := by
  obtain ⟨s', c', hfree, hheld⟩ := after_clamped s c n
  obtain ⟨-, -, -, -, answers⟩ := produce_clamped s' c'
  rw [hfree, hheld]
  exact ⟨rfl, rfl, answers⟩

end Generator

end HostTelemetry
