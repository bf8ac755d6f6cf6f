import HostTelemetry.Proofs.Sink.Fate

/-!
# The same file elsewhere

Calls on an open file see what it holds and the plan, and nothing else of the disk. So on another
disk, where the file has another number, the same calls are answered in the same way, and leave the
same bytes.
-/

set_option autoImplicit false

namespace HostTelemetry

/-- A place for an open file: another disk, and the number of the file there. -/
structure Site where
  disk : Disk
  id : Nat

namespace Site

variable (t : Site)

def handle (h : Handle) : Handle := { h with id := t.id }

def diskOf (id : Nat) (d : Disk) : Disk := t.disk.setContent t.id (d.content id)

def sink (s : Sink) : Sink := { s with file := s.file.map t.handle }

def world (id : Nat) (w : World) : World := { w with disk := t.diskOf id w.disk }

theorem content (id : Nat) (d : Disk) : (t.diskOf id d).content t.id = d.content id :=
  Disk.setContent_content ..

theorem diskOf_setContent (id : Nat) (d : Disk) (bs : Bytes) :
    (t.diskOf id d).setContent t.id bs = t.diskOf id (d.setContent id bs) := by
  simp [diskOf]

end Site

namespace Handle

variable (t : Site) {id : Nat} {h : Handle}

theorem put_elsewhere (hid : h.id = id) (data : Bytes) (d : Disk) :
    (t.handle h).put data (t.diskOf id d) =
        (t.handle (h.put data d).1, t.diskOf id (h.put data d).2) ∧
      (h.put data d).1.id = id := by
  subst hid
  cases data with
  | nil => exact ⟨rfl, rfl⟩
  | cons b data =>
    refine ⟨?_, rfl⟩
    have hcontent := t.content h.id d
    simp only [put, List.isEmpty_cons, Bool.false_eq_true, if_false, Site.handle, hcontent,
      Site.diskOf_setContent]

theorem writeSteps_elsewhere (plan : List PlannedWrite) (data : Bytes) (hid : h.id = id)
    (d : Disk) :
    let e := writeSteps plan data h d
    e.2.2.1.id = id ∧ writeSteps plan data (t.handle h) (t.diskOf id d) =
      (e.1, e.2.1, t.handle e.2.2.1, t.diskOf id e.2.2.2) := by
  fun_induction writeSteps plan data h d with
  | case1 plan h d => exact ⟨hid, by rw [writeSteps]⟩
  | case2 b data h d hclosed =>
    have hclosed' : (t.handle h).closed := hclosed
    exact ⟨hid, by rw [writeSteps, if_pos hclosed']⟩
  | case3 b data h d hopen h' d' hput =>
    have hopen' : ¬(t.handle h).closed := hopen
    obtain ⟨hmoved, hid'⟩ := put_elsewhere t hid (b :: data) d
    rw [hput] at hmoved hid'
    exact ⟨hid', by rw [writeSteps, if_neg hopen', hmoved]⟩
  | case4 f plan b data h d => exact ⟨hid, by rw [writeSteps]⟩
  | case5 plan b data h d hclosed =>
    have hclosed' : (t.handle h).closed := hclosed
    exact ⟨hid, by rw [writeSteps, if_pos hclosed']⟩
  | case6 plan b data h d hopen h' d' hput =>
    have hopen' : ¬(t.handle h).closed := hopen
    obtain ⟨hmoved, hid'⟩ := put_elsewhere t hid (b :: data) d
    rw [hput] at hmoved hid'
    exact ⟨hid', by rw [writeSteps, if_neg hopen', hmoved]⟩
  | case7 n plan b data h d hclosed =>
    have hclosed' : (t.handle h).closed := hclosed
    exact ⟨hid, by rw [writeSteps, if_pos hclosed']⟩
  | case8 n plan b data h d hopen h' d' hput ih =>
    have hopen' : ¬(t.handle h).closed := hopen
    obtain ⟨hmoved, hid'⟩ := put_elsewhere t hid ((b :: data).take n) d
    rw [hput] at hmoved hid'
    obtain ⟨hlast, hsteps⟩ := ih hid'
    exact ⟨hlast, by rw [writeSteps, if_neg hopen', hmoved]; exact hsteps⟩

theorem writeAll_elsewhere (data : Bytes) (hid : h.id = id) (d : Disk) :
    let e := h.writeAll data d
    e.2.1.id = id ∧ (t.handle h).writeAll data (t.diskOf id d) =
      (e.1, t.handle e.2.1, t.diskOf id e.2.2) := by
  obtain ⟨hlast, hsteps⟩ := writeSteps_elsewhere t h.plan.write data hid d
  have hplan : (t.handle h).plan = h.plan := rfl
  unfold writeAll
  rw [hplan, hsteps]
  exact ⟨hlast, rfl⟩

theorem truncate_elsewhere (n : Nat) (hid : h.id = id) (d : Disk) :
    let e := h.truncate n d
    e.2.1.id = id ∧ (t.handle h).truncate n (t.diskOf id d) =
      (e.1, t.handle e.2.1, t.diskOf id e.2.2) := by
  subst hid
  unfold truncate Site.handle
  dsimp only [guarded]
  cases (nextPlanned h.plan.truncate).1 with
  | some f => exact ⟨rfl, rfl⟩
  | none =>
    cases h.closed with
    | true => exact ⟨rfl, rfl⟩
    | false =>
      refine ⟨rfl, ?_⟩
      simp only [Bool.false_eq_true, if_false, t.content, t.diskOf_setContent]

end Handle

namespace Sink

variable (t : Site) {id : Nat} {h : Handle}

/-- What a call on a sink comes to, here and elsewhere. -/
def Agrees {α : Type} (t : Site) (id : Nat) (x y : α × Sink × World) : Prop :=
  (∃ h, x.2.1.file = some h ∧ h.id = id) ∧ y = (x.1, t.sink x.2.1, t.world id x.2.2)

theorem discard_elsewhere (offset : Nat) (hid : h.id = id) (s : Sink) (w : World) :
    Agrees t id (s.discard offset h w) ((t.sink s).discard offset (t.handle h) (t.world id w)) := by
  obtain ⟨hlast, hmoved⟩ := Handle.truncate_elsewhere t offset hid w.disk
  have hdisk : (t.world id w).disk = t.diskOf id w.disk := rfl
  unfold discard
  rw [hdisk, hmoved]
  rcases hcall : h.truncate offset w.disk with ⟨_ | _, h', d⟩
  · rw [hcall] at hlast
    dsimp only
    split
    · exact ⟨⟨h', rfl, hlast⟩, rfl⟩
    · exact ⟨⟨h', rfl, hlast⟩, rfl⟩
  · rw [hcall] at hlast
    exact ⟨⟨h', rfl, hlast⟩, rfl⟩

theorem persist_elsewhere (data : Bytes) (offset : Nat) (hid : h.id = id) (s : Sink) (w : World) :
    Agrees t id (s.persist data offset h w)
      ((t.sink s).persist data offset (t.handle h) (t.world id w)) := by
  obtain ⟨hlast, hmoved⟩ := Handle.writeAll_elsewhere t data hid w.disk
  have hdisk : (t.world id w).disk = t.diskOf id w.disk := rfl
  unfold persist
  rw [hdisk, hmoved]
  rcases hcall : h.writeAll data w.disk with ⟨f | _, h', d⟩
  · rw [hcall] at hlast
    dsimp only
    split
    · obtain ⟨hfile, hdiscard⟩ := discard_elsewhere t offset hlast { s with file := some h' }
        { w with disk := d }
      have hcut : discard offset (t.handle h') { t.sink s with file := some (t.handle h') }
          { t.world id w with disk := t.diskOf id d } = _ := hdiscard
      rw [hcut]
      rcases hcall : discard offset h' { s with file := some h' } { w with disk := d } with
        ⟨_ | _, s', w'⟩
      · rw [hcall] at hfile
        exact ⟨hfile, rfl⟩
      · rw [hcall] at hfile
        exact ⟨hfile, rfl⟩
    · exact ⟨⟨h', rfl, hlast⟩, rfl⟩
  · rw [hcall] at hlast
    have hsync : (t.handle h').sync = (h'.sync.1, t.handle h'.sync.2) := rfl
    dsimp only
    rw [hsync]
    rcases hcall : h'.sync with ⟨_ | _, h''⟩
    · exact ⟨⟨h'', rfl, (congrArg (·.2.id) hcall).symm.trans hlast⟩, rfl⟩
    · exact ⟨⟨h'', rfl, (congrArg (·.2.id) hcall).symm.trans hlast⟩, rfl⟩

theorem echo_elsewhere (record : Text) (size : Nat) {s : Sink} (hfile : s.file = some h)
    (hid : h.id = id) (w : World) :
    Agrees t id (s.echo record size w) ((t.sink s).echo record size (t.world id w)) := by
  obtain ⟨path, append, outlet, file, bytesWritten⟩ := s
  obtain rfl : file = some h := hfile
  have houtlet : ((t.sink ⟨path, append, outlet, some h, bytesWritten⟩).outlet.getD
      (t.world id w).stdout) = outlet.getD w.stdout := rfl
  unfold echo
  rw [houtlet]
  rcases (outlet.getD w.stdout).send record with ⟨_ | _, o⟩
  · cases outlet <;> exact ⟨⟨h, rfl, hid⟩, rfl⟩
  · cases outlet <;> exact ⟨⟨h, rfl, hid⟩, rfl⟩

theorem emit_elsewhere (line : Text) {s : Sink} (hfile : s.file = some h) (hid : h.id = id)
    (w : World) : Agrees t id (s.emit line w) ((t.sink s).emit line (t.world id w)) := by
  have hmoved : (t.sink s).file = some (t.handle h) := congrArg (Option.map t.handle) hfile
  unfold emit
  rw [hmoved, hfile]
  dsimp only
  cases Utf8.encode (line ++ [10]) with
  | error u => exact ⟨⟨h, hfile, hid⟩, rfl⟩
  | ok data =>
    have htell : (t.handle h).tell = (h.tell.1, t.handle h.tell.2) := rfl
    dsimp only
    rw [htell]
    rcases hcall : h.tell with ⟨f | offset, h'⟩
    · exact ⟨⟨h', rfl, (congrArg (·.2.id) hcall).symm.trans hid⟩, rfl⟩
    · obtain ⟨hfile', hpersist⟩ := persist_elsewhere t data offset
        ((congrArg (·.2.id) hcall).symm.trans hid) { s with file := some h' } w
      have hkept : persist data offset (t.handle h') { t.sink s with file := some (t.handle h') }
          (t.world id w) = _ := hpersist
      dsimp only
      rw [hkept]
      rcases hcall : persist data offset h' { s with file := some h' } w with ⟨_ | _, s', w'⟩
      · rw [hcall] at hfile'
        exact ⟨hfile', rfl⟩
      · rw [hcall] at hfile'
        obtain ⟨h'', hfile'', hid''⟩ := hfile'
        exact echo_elsewhere t (line ++ [10]) data.length hfile'' hid'' w'

theorem leave_elsewhere (id : Nat) (inFlight : Bool) (s : Sink) (w : World) :
    let e := s.leave inFlight w
    (t.sink s).leave inFlight (t.world id w) = (e.1, t.sink e.2.1, t.world id e.2.2) := by
  obtain ⟨path, append, outlet, file, bytesWritten⟩ := s
  cases file with
  | none => rfl
  | some h =>
    have hclose : (t.handle h).close = h.close := rfl
    simp only [leave, release, Site.sink, Option.map_some, hclose]
    cases h.close with
    | ok u => rfl
    | error f =>
      dsimp only
      split <;> rfl

end Sink

end HostTelemetry
