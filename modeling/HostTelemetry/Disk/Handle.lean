import HostTelemetry.Disk.Basic

/-!
# Handles

A handle is an open file with a position. Appending writes go to the end and take the position
there; other writes go to the position, and a gap before it is filled with zeros. Truncating does
not move the position. A plan says which of the next calls fail or write less than they are
given; what is planned happens before the call itself.
-/

set_option autoImplicit false

namespace HostTelemetry

abbrev Planned := Option Fault

inductive PlannedWrite
  | usual
  | fails (f : Fault)
  | atMost (n : Nat)

/-- The next calls of each operation; after them all goes as usual. -/
structure Plan where
  tell : List Planned
  write : List PlannedWrite
  truncate : List Planned
  sync : List Planned
  close : List Planned

namespace Plan

def none : Plan := ⟨[], [], [], [], []⟩

end Plan

def nextPlanned : List Planned → Planned × List Planned
  | [] => (Option.none, [])
  | a :: as => (a, as)

structure Handle where
  id : Nat
  position : Nat
  append : Bool
  closed : Bool
  plan : Plan

def overwrite (bs : Bytes) (position : Nat) (data : Bytes) : Bytes :=
  bs.take position ++ List.replicate (position - bs.length) 0 ++ data ++
    bs.drop (position + data.length)

def resized (bs : Bytes) (n : Nat) : Bytes := bs.take n ++ List.replicate (n - bs.length) 0

namespace Handle

def acquire (p : Path) (append : Bool) (d : Disk) : Except Fault (Handle × Disk) := do
  let (id, d) ← d.acquire p append
  pure (⟨id, if append then (d.content id).length else 0, append, false, .none⟩, d)

/-- A call that is planned to fail, or finds the handle closed, or goes on. -/
def guarded {α : Type} (h : Handle) (planned : Planned) (go : α) : Except Fault α :=
  match planned with
  | some f => .error f
  | Option.none => if h.closed then .error .closed else .ok go

def tell (h : Handle) : Except Fault Nat × Handle :=
  let (a, rest) := nextPlanned h.plan.tell
  (h.guarded a h.position, { h with plan := { h.plan with tell := rest } })

/-- Writes bytes at once. Writing none changes nothing. -/
def put (h : Handle) (data : Bytes) (d : Disk) : Handle × Disk :=
  if data.isEmpty then (h, d)
  else
    let bs := d.content h.id
    let place := if h.append then bs.length else h.position
    ({ h with position := place + data.length }, d.setContent h.id (overwrite bs place data))

def writeSteps : List PlannedWrite → Bytes → Handle → Disk →
    Except Fault Unit × List PlannedWrite × Handle × Disk
  | plan, [], h, d => (.ok (), plan, h, d)
  | [], b :: data, h, d =>
    if h.closed then (.error .closed, [], h, d)
    else
      let (h, d) := h.put (b :: data) d
      (.ok (), [], h, d)
  | .fails f :: plan, _ :: _, h, d => (.error f, plan, h, d)
  | .usual :: plan, b :: data, h, d =>
    if h.closed then (.error .closed, plan, h, d)
    else
      let (h, d) := h.put (b :: data) d
      (.ok (), plan, h, d)
  | .atMost n :: plan, b :: data, h, d =>
    if h.closed then (.error .closed, plan, h, d)
    else
      let (h, d) := h.put ((b :: data).take n) d
      writeSteps plan ((b :: data).drop n) h d

def writeAll (data : Bytes) (h : Handle) (d : Disk) : Except Fault Unit × Handle × Disk :=
  let (r, rest, h, d) := writeSteps h.plan.write data h d
  (r, { h with plan := { h.plan with write := rest } }, d)

def truncate (n : Nat) (h : Handle) (d : Disk) : Except Fault Unit × Handle × Disk :=
  let (a, rest) := nextPlanned h.plan.truncate
  let h := { h with plan := { h.plan with truncate := rest } }
  match h.guarded a () with
  | .error f => (.error f, h, d)
  | .ok _ => (.ok (), h, d.setContent h.id (resized (d.content h.id) n))

def sync (h : Handle) : Except Fault Unit × Handle :=
  let (a, rest) := nextPlanned h.plan.sync
  (h.guarded a (), { h with plan := { h.plan with sync := rest } })

/-- Closes the file; a planned fault comes after that. -/
def close (h : Handle) : Except Fault Unit :=
  match (nextPlanned h.plan.close).1 with
  | some f => .error f
  | Option.none => .ok ()

end Handle

end HostTelemetry
