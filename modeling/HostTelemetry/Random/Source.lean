import HostTelemetry.Number
import HostTelemetry.Random.Twister

/-!
# Sources of randomness

A stream gives doubles one after another. A source draws normal and uniform numbers. Over a
stream, normal numbers come in pairs from two draws, of which the second waits for the next call;
a uniform number takes one draw. Some functions of a pair have no exact result; the machine that
computes them is a parameter.
-/

set_option autoImplicit false

namespace HostTelemetry

class Stream (σ : Type) where
  next : σ → Double × σ

/-- A source of normal and uniform numbers. A failing draw leaves a state too. -/
class Source (σ : Type) where
  gauss : (mean spread : Number) → σ → Except Fault Number × σ
  uniform : (low high : Number) → σ → Except Fault Number × σ

instance : Stream Twister := ⟨Twister.next⟩

structure Cycle (α : Type) where
  all : List α
  rest : List α

namespace Cycle

def ofList {α : Type} (xs : List α) : Cycle α := ⟨xs, xs⟩

def next? {α : Type} (c : Cycle α) : Option (α × Cycle α) :=
  match c.rest with
  | x :: xs => some (x, { c with rest := xs })
  | [] =>
    match c.all with
    | x :: xs => some (x, { c with rest := xs })
    | [] => none

end Cycle

instance : Stream (Cycle Double) := ⟨fun c => c.next?.getD (Double.zero false, c)⟩

/-- The functions without an exact result, as some machine computes them. -/
structure Elementary where
  sqrt : Double → Double
  log : Double → Double
  sin : Double → Double
  cos : Double → Double

def Elementary.machine : Elementary := ⟨Double.sqrt, Double.log, Double.sin, Double.cos⟩

/-- A stream, and the second normal number of a pair if it still waits. -/
structure Paired (m : Elementary) (σ : Type) where
  stream : σ
  waiting : Option Double

namespace Paired

def twoPi : Double := Double.ofBits 0x401921FB54442D18

def minusTwo : Double := Double.ofBits 0xC000000000000000

def unit : Double := Double.ofBits 0x3FF0000000000000

variable (m : Elementary)

def logOf (x : Double) : Except Fault Double :=
  match x with
  | .finite negative u _ => if negative ∨ u = 0 then .error .outsideDomain else .ok (m.log x)
  | .infinite true => .error .outsideDomain
  | _ => .ok x

def rootOf (x : Double) : Except Fault Double :=
  match x with
  | .finite negative u _ => if negative ∧ u ≠ 0 then .error .outsideDomain else .ok (m.sqrt x)
  | .infinite true => .error .outsideDomain
  | _ => .ok x

def pairOf (u v : Double) : Except Fault (Double × Double) := do
  let angle := u.mul twoPi
  let l ← logOf m (unit.sub v)
  let radius ← rootOf m (minusTwo.mul l)
  match angle with
  | .infinite _ => .error .outsideDomain
  | _ => pure ((m.cos angle).mul radius, (m.sin angle).mul radius)

variable {m} {σ : Type} [Stream σ]

def standard (s : Paired m σ) : Except Fault Double × Paired m σ :=
  match s.waiting with
  | some z => (.ok z, { s with waiting := none })
  | none =>
    let (u, t) := Stream.next s.stream
    let (v, t) := Stream.next t
    match pairOf m u v with
    | .ok (z, w) => (.ok z, ⟨t, some w⟩)
    | .error f => (.error f, ⟨t, none⟩)

def moved (mean spread : Number) (z : Double) : Except Fault Number := do
  let x ← Number.mul (.double z) spread
  Number.add mean x

def gauss (mean spread : Number) (s : Paired m σ) : Except Fault Number × Paired m σ :=
  let (z, s) := s.standard
  (z.bind (moved mean spread), s)

/-- The width is taken before the draw, which is not made if that fails. -/
def uniform (low high : Number) (s : Paired m σ) : Except Fault Number × Paired m σ :=
  match high.sub low with
  | .error f => (.error f, s)
  | .ok width =>
    let (u, t) := Stream.next s.stream
    ((width.mul (.double u)).bind low.add, { s with stream := t })

instance : Source (Paired m σ) := ⟨gauss, uniform⟩

end Paired

structure Fixed (σ : Type) where
  distance : Double
  source : Paired .machine σ

instance {σ : Type} [Stream σ] : Source (Fixed σ) where
  gauss mean spread s := (Paired.moved mean spread s.distance, s)
  uniform low high s :=
    let (x, t) := Paired.uniform low high s.source
    (x, { s with source := t })

inductive AnySource
  | seeded (s : Paired .machine Twister)
  | scripted (s : Paired .machine (Cycle Double))
  | fixed (s : Fixed Twister)

namespace AnySource

def ofSeed (seed : Int) : AnySource := .seeded ⟨Twister.ofSeed seed, none⟩

def ofList (xs : List Double) : AnySource := .scripted ⟨Cycle.ofList xs, none⟩

def atDistance (d : Double) : AnySource := .fixed ⟨d, ⟨Twister.ofSeed 0, none⟩⟩

instance : Source AnySource where
  gauss mean spread
    | .seeded s => (Source.gauss mean spread s).map id .seeded
    | .scripted s => (Source.gauss mean spread s).map id .scripted
    | .fixed s => (Source.gauss mean spread s).map id .fixed
  uniform low high
    | .seeded s => (Source.uniform low high s).map id .seeded
    | .scripted s => (Source.uniform low high s).map id .scripted
    | .fixed s => (Source.uniform low high s).map id .fixed

end AnySource

end HostTelemetry
