import HostTelemetry.Metric.Collector

/-!
# Counters

A counter keeps a total for each output. What is added since the last reading is summed up on its
own and added to the totals by the next one. Negative amounts are dropped.
-/

set_option autoImplicit false

namespace HostTelemetry

/-- Numbers by output, in the order in which the outputs came up. -/
abbrev Tally := List (Text × Number)

namespace Tally

def add (output : Text) (n : Number) : Tally → Except Fault Tally
  | [] => (Number.add (.int 0) n).map fun m => [(output, m)]
  | (o, m) :: t =>
    if o = output then (Number.add m n).map fun m => (o, m) :: t
    else (add output n t).map ((o, m) :: ·)

/-- Adds the numbers of another tally, each in front of the one that is there. -/
def gather : (pending : Tally) → Tally → Except Fault Tally
  | [], t => .ok t
  | (o, n) :: pending, t => do
    let m ← Number.add n ((lookup? o t).getD (.int 0))
    gather pending (put o m t)
where
  put (output : Text) (m : Number) : Tally → Tally
    | [] => [(output, m)]
    | (o, k) :: t => if o = output then (o, m) :: t else (o, k) :: put output m t

end Tally

structure Counter where
  instrument : Instrument
  /-- What came since the last reading. -/
  pending : Tally
  totals : Tally

namespace Counter

def make (i : Instrument) : Counter := ⟨i, [], []⟩

def add (amount : Value) (output : Text) (c : Counter) : Except Fault Unit × Counter :=
  match amount.number? with
  | none => (.error .unordered, c)
  | some n =>
    if n.lt (.int 0) then (.ok (), c)
    else match c.pending.add output n with
      | .error f => (.error f, c)
      | .ok t => (.ok (), { c with pending := t })

def read (c : Counter) : Except Fault Tally × Counter :=
  match c.pending.gather c.totals with
  | .error f => (.error f, { c with pending := [] })
  | .ok t => (.ok t, { c with pending := [], totals := t })

/-- A counter that was told some amounts; one that cannot be added is left out. -/
def ofTold (t : Told) : Counter :=
  t.amounts.foldl (fun c p => (c.add (.int p.2) p.1).2) (.make t.instrument)

def series (start time : Int) (c : Counter) (t : Tally) : Series :=
  ⟨.text (lit c.instrument.name), .text (lit c.instrument.description),
    .text (lit c.instrument.unit),
    t.map fun p => ⟨[(Told.outputKey, .text p.1)], .int start, .int time, .ofNumber p.2⟩⟩

def report (resource : Attributes) (start time : Int) (cs : List Counter) : List Report :=
  let read := cs.map fun c => (c, c.read.1.toOption.getD [])
  match read.filter fun c => !c.2.isEmpty with
  | [] => []
  | cs => [⟨resource.values, cs.map fun c => series start time c.1 c.2⟩]

end Counter

namespace Attributes

def named (kv : Text × Text) : Text × Text :=
  if kv = (lit "service.name", []) then (lit "service.name", lit "unknown_service") else kv

/-- Attributes with others behind them, which replace those with the same keys. -/
def overriddenBy (added a : Attributes) : Attributes :=
  (added.filter fun kv => !(a.map Prod.fst).contains kv.1) ++ a.map named

end Attributes

def Collector.totals (added : Attributes) : Collector where
  resource := added.overriddenBy
  start opening _ _ := opening
  time _ closing := closing
  collect a opening closing told :=
    Counter.report (added.overriddenBy a) opening closing (told.map Counter.ofTold)

end HostTelemetry
