import HostTelemetry.Proofs.Disk.Frame
import HostTelemetry.Sink

/-!
# How an emission ends

A line that is given to a sink meets one of six fates, from not being tried to being kept. The
fate says what the file and the outlet hold afterwards, what is answered and what is counted,
under every plan and with the position of the handle anywhere.
-/

set_option autoImplicit false

namespace HostTelemetry

namespace Handle

structure Follows (h h' : Handle) : Prop where
  id_eq : h'.id = h.id
  append_eq : h'.append = h.append
  closed_eq : h'.closed = h.closed
  writes : h'.plan.write <:+ h.plan.write
  truncates : h'.plan.truncate <:+ h.plan.truncate

theorem Follows.refl (h : Handle) : h.Follows h :=
  ⟨rfl, rfl, rfl, List.suffix_rfl, List.suffix_rfl⟩

theorem Follows.trans {h h' h'' : Handle} (a : h.Follows h') (b : h'.Follows h'') :
    h.Follows h'' :=
  ⟨b.id_eq.trans a.id_eq, b.append_eq.trans a.append_eq, b.closed_eq.trans a.closed_eq,
    b.writes.trans a.writes, b.truncates.trans a.truncates⟩

theorem nextPlanned_suffix (as : List Planned) : (nextPlanned as).2 <:+ as := by
  cases as with
  | nil => exact List.suffix_rfl
  | cons a as => exact List.suffix_cons a as

theorem tell_follows (h : Handle) : h.Follows h.tell.2 :=
  ⟨rfl, rfl, rfl, List.suffix_rfl, List.suffix_rfl⟩

theorem tell_tape (h : Handle) (d : Disk) : h.tell.2.tape d = h.tape d := rfl

theorem tell_ok (h : Handle) (offset : Nat) (ht : h.tell.1 = .ok offset) : offset = h.position := by
  simp only [tell, guarded] at ht
  split at ht
  · simp at ht
  · split at ht
    · simp at ht
    · exact (Except.ok.inj ht).symm

theorem sync_follows (h : Handle) : h.Follows h.sync.2 :=
  ⟨rfl, rfl, rfl, List.suffix_rfl, List.suffix_rfl⟩

theorem sync_tape (h : Handle) (d : Disk) : h.sync.2.tape d = h.tape d := rfl

theorem truncate_cases (h : Handle) (n : Nat) (d : Disk) :
    ∃ h', h.Follows h' ∧ h'.position = h.position ∧
      ((∃ f, h.truncate n d = (.error f, h', d)) ∨
        h.truncate n d = (.ok (), h', d.setContent h.id (resized (d.content h.id) n))) := by
  refine ⟨{ h with plan := { h.plan with truncate := (nextPlanned h.plan.truncate).2 } },
    ⟨rfl, rfl, rfl, List.suffix_rfl, nextPlanned_suffix _⟩, rfl, ?_⟩
  unfold truncate
  dsimp only
  generalize guarded _ _ () = answer
  cases answer with
  | error f => exact Or.inl ⟨f, rfl⟩
  | ok u => exact Or.inr rfl

theorem writeAll_follows (data : Bytes) (h : Handle) (d : Disk) (hopen : h.closed = false) :
    let taken := (h.tape d).put h.append (data.take (reach h.plan.write data.length))
    h.Follows (writeAll data h d).2.1 ∧
      (writeAll data h d).2.1.tape (writeAll data h d).2.2 = taken ∧
      (writeAll data h d).2.2 = d.setContent h.id taken.bytes ∧
      match (writeAll data h d).1 with
      | .ok _ => reach h.plan.write data.length = data.length
      | .error f => reach h.plan.write data.length < data.length ∧ .fails f ∈ h.plan.write := by
  obtain ⟨r, rest, hsteps, hrest, hr⟩ := writeSteps_settle h.plan.write data h d hopen
  simp only [writeAll, hsteps, settle]
  exact ⟨⟨rfl, rfl, rfl, hrest, List.suffix_rfl⟩, by simp [tape], trivial, hr⟩

end Handle

namespace Sink

def recordOf (line : Text) : Text := line ++ [10]

def bytesOf (line : Text) : Bytes := (recordOf line).flatMap Utf8.encodeOne

def written (lines : List Text) : Bytes := lines.flatMap bytesOf

def shown (lines : List Text) : Text := lines.flatMap recordOf

theorem written_append (lines : List Text) (line : Text) :
    written (lines ++ [line]) = written lines ++ bytesOf line := by
  simp [written]

theorem shown_append (lines : List Text) (line : Text) :
    shown (lines ++ [line]) = shown lines ++ recordOf line := by
  simp [shown]

inductive Fate
  /-- Nothing was written: there is no open file, no bytes for the line, or no position. -/
  | untried
  /-- A write failed after some bytes, which perhaps were cut off again. -/
  | cut (taken : Nat) (undone : Bool)
  | unsynced
  | unheard
  | unflushed
  | kept
  deriving DecidableEq, Repr

namespace Fate

def isFiled : Fate → Bool
  | .untried | .cut .. => false
  | _ => true

def isHeard : Fate → Bool
  | .unflushed | .kept => true
  | _ => false

def tape (append : Bool) (data : Bytes) (t : Tape) : Fate → Tape
  | .untried => t
  | .cut taken undone =>
    let u := t.put append (data.take taken)
    if undone then u.cut t.position else u
  | _ => t.put append data

end Fate

/-- How bringing bytes to the disk fails. -/
def persistFate (data : Bytes) (offset : Nat) (h : Handle) (d : Disk) : Option Fate :=
  match h.writeAll data d with
  | (.error f, h', d') =>
    some (.cut (Handle.reach h.plan.write data.length)
      (f.isExpected && (h'.truncate offset d').1.isOk))
  | (.ok _, h', _) =>
    match h'.sync.1 with
    | .error _ => some .unsynced
    | .ok _ => none

def echoFate (record : Text) (o : Outlet) : Fate :=
  match o.write record with
  | (.error _, _) => .unheard
  | (.ok _, o) =>
    match o.flush.1 with
    | .error _ => .unflushed
    | .ok _ => .kept

def outletOf (s : Sink) (w : World) : Outlet := s.outlet.getD w.stdout

/-- What becomes of a line that is given to a sink. -/
def fate (line : Text) (s : Sink) (w : World) : Fate :=
  match s.file with
  | none => .untried
  | some h =>
    match Utf8.encode (recordOf line), h.tell with
    | .ok data, (.ok offset, h) =>
      (persistFate data offset h w.disk).getD (echoFate (recordOf line) (s.outletOf w))
    | _, _ => .untried

theorem encode_record (line : Text) (data : Bytes) (h : Utf8.encode (recordOf line) = .ok data) :
    data = bytesOf line := by
  unfold Utf8.encode at h
  split at h
  · simp at h
  · exact (Except.ok.inj h).symm

/-- The open file and the disk after calls that leave a tape under the handle. -/
structure Leaves (h : Handle) (t : Tape) (w : World) (h' : Handle) (w' : World) : Prop where
  follows : h.Follows h'
  position : h'.position = t.position
  disk : w'.disk = w.disk.setContent h.id t.bytes

theorem Leaves.tape {h h' : Handle} {t : Tape} {w w' : World} (a : Leaves h t w h' w') :
    h'.tape w'.disk = t := by
  simp [Handle.tape, a.follows.id_eq, a.position, a.disk]

theorem Leaves.trans {h h' h'' : Handle} {t u : Tape} {w w' w'' : World}
    (a : Leaves h t w h' w') (b : Leaves h' u w' h'' w'') : Leaves h u w h'' w'' := by
  refine ⟨a.follows.trans b.follows, b.position, ?_⟩
  rw [b.disk, a.disk, a.follows.id_eq, Disk.setContent_setContent]

theorem Leaves.after {h h₀ h' : Handle} {t : Tape} {w w' : World} (hfollows : h.Follows h₀)
    (a : Leaves h₀ t w h' w') : Leaves h t w h' w' := by
  constructor
  case follows => exact hfollows.trans a.follows
  case position => exact a.position
  case disk => rw [a.disk, hfollows.id_eq]

theorem discard_leaves (offset : Nat) (h : Handle) (s : Sink) (w : World) :
    ∃ h' w', (s.discard offset h w).2 = ({ s with file := some h' }, w') ∧ w'.stdout = w.stdout ∧
      Leaves h (if (h.truncate offset w.disk).1.isOk then (h.tape w.disk).cut offset
        else h.tape w.disk) w h' w' := by
  obtain ⟨h', hfollows, hpos, ⟨f, ht⟩ | ht⟩ := h.truncate_cases offset w.disk
  · have hstay : ∀ w' : World, w'.disk = w.disk → Leaves h (h.tape w.disk) w h' w' := by
      intro w' hdisk
      exact ⟨hfollows, hpos, hdisk.trans (Disk.setContent_self _ _).symm⟩
    simp only [discard, ht]
    by_cases hf : f.isExpected
    · rw [if_pos hf]
      exact ⟨h', _, rfl, rfl, hstay _ rfl⟩
    · rw [if_neg hf]
      exact ⟨h', w, rfl, rfl, hstay w rfl⟩
  · simp only [discard, ht]
    exact ⟨h', _, rfl, rfl, hfollows, hpos, rfl⟩

theorem persistFate_silent (data : Bytes) (offset : Nat) (h : Handle) (d : Disk) (fate : Fate)
    (hf : persistFate data offset h d = some fate) : fate.isHeard = false := by
  unfold persistFate at hf
  split at hf
  · obtain rfl := Option.some.inj hf
    rfl
  · split at hf
    · obtain rfl := Option.some.inj hf
      rfl
    · simp at hf

/-- A write that fails leaves the bytes that were taken, cut off again if that is possible. -/
theorem persist_cut (data : Bytes) {h h₁ : Handle} {d : Disk} {f : Fault} (s : Sink) (w : World)
    (hwrite : h.writeAll data w.disk = (.error f, h₁, d)) (hfollows : h.Follows h₁)
    (htape : h₁.tape d =
      (h.tape w.disk).put h.append (data.take (Handle.reach h.plan.write data.length)))
    (hdisk : d = w.disk.setContent h.id (h₁.tape d).bytes) :
    ∃ e h' w' fate, s.persist data h.position h w = (.error e, { s with file := some h' }, w') ∧
      w'.stdout = w.stdout ∧ persistFate data h.position h w.disk = some fate ∧
      Leaves h (fate.tape h.append data (h.tape w.disk)) w h' w' := by
  simp only [persist, persistFate, hwrite]
  by_cases hf : f.isExpected
  · obtain ⟨h', w', hdiscard, hstdout, hleft⟩ :=
      discard_leaves h.position h₁ { s with file := some h₁ } { w with disk := d }
    rcases hr : Sink.discard h.position h₁ { s with file := some h₁ } { w with disk := d }
      with ⟨r, sink, v⟩
    rw [hr] at hdiscard
    obtain ⟨rfl, rfl⟩ := Prod.mk.inj hdiscard
    have hfate : Leaves h (Fate.tape h.append data (h.tape w.disk)
        (.cut (Handle.reach h.plan.write data.length) (h₁.truncate h.position d).1.isOk))
        w h' v := by
      rw [htape] at hleft
      constructor
      case follows => exact hfollows.trans hleft.follows
      case position => exact hleft.position
      case disk =>
        rw [hleft.disk, hdisk, hfollows.id_eq, Disk.setContent_setContent]
        rfl
    rw [if_pos hf, hf, Bool.true_and]
    cases r with
    | error e => exact ⟨e, h', v, _, rfl, hstdout, rfl, hfate⟩
    | ok u => exact ⟨_, h', v, _, rfl, hstdout, rfl, hfate⟩
  · have hfate : Leaves h (Fate.tape h.append data (h.tape w.disk)
        (.cut (Handle.reach h.plan.write data.length) false)) w h₁ { w with disk := d } := by
      rw [htape] at hdisk
      exact ⟨hfollows, congrArg Tape.position htape, hdisk⟩
    rw [if_neg hf, Bool.eq_false_iff.2 hf, Bool.false_and]
    exact ⟨_, h₁, _, _, rfl, rfl, rfl, hfate⟩

theorem persist_leaves (data : Bytes) (h : Handle) (s : Sink) (w : World)
    (hopen : h.closed = false) :
    ∃ r h' w', s.persist data h.position h w = (r, { s with file := some h' }, w') ∧
      w'.stdout = w.stdout ∧
      match persistFate data h.position h w.disk with
      | none => r = .ok () ∧ Leaves h ((h.tape w.disk).put h.append data) w h' w'
      | some fate => (∃ e, r = .error e) ∧
          Leaves h (fate.tape h.append data (h.tape w.disk)) w h' w' := by
  obtain ⟨hfollows, htape, hdisk, hr⟩ := h.writeAll_follows data w.disk hopen
  rcases hwrite : h.writeAll data w.disk with ⟨r, h₁, d⟩
  rw [hwrite] at hfollows htape hdisk hr
  dsimp only at hfollows htape hdisk hr
  cases r with
  | error f =>
    rw [← htape] at hdisk
    obtain ⟨e, h', w', fate, hpersist, hstdout, hfate, hleft⟩ :=
      persist_cut data s w hwrite hfollows htape hdisk
    rw [hfate]
    exact ⟨.error e, h', w', hpersist, hstdout, ⟨e, rfl⟩, hleft⟩
  | ok u =>
    rw [hr, List.take_length] at htape hdisk
    rcases hsync : h₁.sync with ⟨r, h₂⟩
    have hfollows₂ : h.Follows h₂ := hfollows.trans (by simpa [hsync] using h₁.sync_follows)
    have htape₂ : h₂.tape d = h₁.tape d := by simpa [hsync] using h₁.sync_tape d
    have hleft : Leaves h ((h.tape w.disk).put h.append data) w h₂ { w with disk := d } :=
      ⟨hfollows₂, congrArg Tape.position (htape₂.trans htape), hdisk⟩
    simp only [persist, persistFate, hwrite, hsync]
    cases r with
    | error f => exact ⟨_, h₂, _, rfl, rfl, ⟨_, rfl⟩, hleft⟩
    | ok v => exact ⟨.ok (), h₂, _, rfl, rfl, rfl, hleft⟩

theorem write_text (t : Text) (o : Outlet) :
    (o.write t).2.text = o.text ++ (if (o.write t).1.isOk then t else []) := by
  rcases ha : (nextPlanned o.writes).1.orElse fun _ =>
    ({ o with writes := (nextPlanned o.writes).2 } : Outlet).refusal t with _ | f
  · simp only [Outlet.write, ha, Except.isOk, Except.toBool, if_true]
  · simp [Outlet.write, ha, Except.isOk, Except.toBool, -Option.orElse_eq_or]

theorem flush_text (o : Outlet) : o.flush.2.text = o.text := by
  simp only [Outlet.flush]
  split <;> rfl

theorem send_text (record : Text) (o : Outlet) :
    (o.send record).2.text = o.text ++ (if (echoFate record o).isHeard then record else []) ∧
      ((o.send record).1.isOk ↔ echoFate record o = .kept) ∧
      (echoFate record o).isFiled := by
  have htext := write_text record o
  rcases hw : o.write record with ⟨r, o1⟩
  rw [hw] at htext
  cases r with
  | error f =>
    simpa [Outlet.send, echoFate, hw, Fate.isHeard, Fate.isFiled, Except.isOk, Except.toBool]
      using htext
  | ok u =>
    have hflush := flush_text o1
    rcases hf : o1.flush with ⟨r, o2⟩
    rw [hf] at hflush
    dsimp only at htext hflush
    cases r <;>
      simp [Outlet.send, echoFate, hw, Fate.isHeard, Fate.isFiled, Except.isOk, Except.toBool,
        hf, hflush, htext]

structure Counts (record : Text) (size : Nat) (fate : Fate) (s : Sink) (w : World)
    (r : Except Failure Nat) (s' : Sink) (w' : World) : Prop where
  path_eq : s'.path = s.path
  append_eq : s'.append = s.append
  outlet_eq : s'.outlet.isSome = s.outlet.isSome
  heard : (s'.outletOf w').text = (s.outletOf w).text ++ (if fate.isHeard then record else [])
  counted : s'.bytesWritten = s.bytesWritten + (if fate = .kept then size else 0)
  answer : match r with
    | .ok n => fate = .kept ∧ n = size
    | .error _ => fate ≠ .kept

theorem outlet_back (o : Outlet) (s : Sink) (w : World) :
    ∃ s' w', (if s.outlet.isSome then ({ s with outlet := some o }, w)
        else (s, { w with stdout := o })) = (s', w') ∧
      s'.outletOf w' = o ∧ w'.disk = w.disk ∧ s'.outlet.isSome = s.outlet.isSome ∧
      s' = { s with outlet := s'.outlet } := by
  rcases hout : s.outlet with _ | o'
  · exact ⟨s, { w with stdout := o }, by simp, by simp [outletOf, hout], rfl, by simp [hout], rfl⟩
  · exact ⟨{ s with outlet := some o }, w, by simp, rfl, rfl, rfl, rfl⟩

theorem echo_counts (record : Text) (size : Nat) (s : Sink) (w : World) :
    ∃ r s' w', s.echo record size w = (r, s', w') ∧ s'.file = s.file ∧ w'.disk = w.disk ∧
      Counts record size (echoFate record (s.outletOf w)) s w r s' w' := by
  obtain ⟨htext, hok, -⟩ := send_text record (s.outletOf w)
  rcases hs : (s.outletOf w).send record with ⟨r, o⟩
  rw [hs] at htext hok
  obtain ⟨s', w', hback, hout, hdisk, hsome, hsame⟩ := outlet_back o s w
  have hsend : (s.outlet.getD w.stdout).send record = (r, o) := hs
  cases r with
  | error f =>
    have hkept : echoFate record (s.outletOf w) ≠ .kept := fun h => by
      simpa [Except.isOk, Except.toBool] using hok.2 h
    refine ⟨_, s', w', by simp only [echo, hsend, hback]; rfl, by rw [hsame], hdisk,
      by rw [hsame], by rw [hsame], hsome, by rw [hout, htext], ?_, hkept⟩
    rw [hsame, if_neg hkept]
    rfl
  | ok u =>
    have hkept : echoFate record (s.outletOf w) = .kept := hok.1 rfl
    refine ⟨.ok size, { s' with bytesWritten := s'.bytesWritten + size }, w',
      by simp only [echo, hsend, hback], by rw [hsame], hdisk, by rw [hsame], by rw [hsame], hsome,
      ?_, ?_, hkept, rfl⟩
    · rw [← htext, ← hout]
      rfl
    · rw [if_pos hkept, hsame]

theorem echoFate_filed (record : Text) (o : Outlet) : (echoFate record o).isFiled :=
  (send_text record o).2.2

theorem Fate.tape_of_filed {fate : Fate} (append : Bool) (data : Bytes) (t : Tape)
    (h : fate.isFiled) : fate.tape append data t = t.put append data := by
  cases fate <;> simp_all [isFiled, tape]

theorem untried_leaves (line : Text) {h h' : Handle} (s : Sink) (w : World) (e : Failure)
    (hfollows : h.Follows h') (hposition : h'.position = h.position) :
    Leaves h ((Fate.untried).tape h.append (bytesOf line) (h.tape w.disk)) w h' w ∧
      Counts (recordOf line) (bytesOf line).length .untried s w (.error e)
        { s with file := some h' } w := by
  constructor
  · exact ⟨hfollows, hposition, (Disk.setContent_self _ _).symm⟩
  · exact ⟨rfl, rfl, rfl, by simp [Fate.isHeard, outletOf], rfl, nofun⟩

theorem tell_position {h h₀ : Handle} {r : Except Fault Nat} (d : Disk) (htell : h.tell = (r, h₀)) :
    h₀.tape d = h.tape d ∧ ∀ offset, r = .ok offset → offset = h₀.position := by
  have htape : h₀.tape d = h.tape d := by simpa [htell] using h.tell_tape d
  constructor
  · exact htape
  · intro offset hr
    have hoffset := h.tell_ok offset (by rw [htell, hr])
    exact hoffset.trans (congrArg Tape.position htape).symm

theorem emit_told (line : Text) {h h₀ : Handle} {s : Sink} {w : World} (hfile : s.file = some h)
    (hopen : h.closed = false) (henc : Utf8.encode (recordOf line) = .ok (bytesOf line))
    (htell : h.tell = (.ok h₀.position, h₀)) :
    ∃ r s' w' h', s.emit line w = (r, s', w') ∧ s'.file = some h' ∧
      Leaves h ((s.fate line w).tape h.append (bytesOf line) (h.tape w.disk)) w h' w' ∧
      Counts (recordOf line) (bytesOf line).length (s.fate line w) s w r s' w' := by
  have hfollows : h.Follows h₀ := by simpa [htell] using h.tell_follows
  have htape := (tell_position w.disk htell).1
  obtain ⟨r, h₁, w₁, hpersist, hstdout, hleft⟩ :=
    persist_leaves (bytesOf line) h₀ { s with file := some h₀ } w (hfollows.closed_eq.trans hopen)
  rw [htape, hfollows.append_eq] at hleft
  have hfate : s.fate line w = (persistFate (bytesOf line) h₀.position h₀ w.disk).getD
      (echoFate (recordOf line) (s.outletOf w)) := by simp [fate, hfile, henc, htell]
  have houtlet : ∀ h', Sink.outletOf { s with file := some h' } w₁ = s.outletOf w := by
    intro h'
    simp [outletOf, hstdout]
  cases hp : persistFate (bytesOf line) h₀.position h₀ w.disk with
  | none =>
    rw [hp] at hleft hfate
    obtain ⟨rfl, hleft⟩ := hleft
    obtain ⟨r, s', w', hecho, hsame, hdisk, hcounts⟩ :=
      echo_counts (recordOf line) (bytesOf line).length { s with file := some h₁ } w₁
    rw [houtlet] at hcounts
    rw [hfate, Option.getD_none, Fate.tape_of_filed _ _ _ (echoFate_filed _ _)]
    have hemit : s.emit line w = (r, s', w') := by
      simp only [emit, hfile, ← recordOf.eq_1, henc, htell, hpersist, hecho]
    have hdone : Leaves h ((h.tape w.disk).put h.append (bytesOf line)) w h₁ w' :=
      ⟨hfollows.trans hleft.follows, hleft.position, by rw [hdisk, (hleft.after hfollows).disk]⟩
    exact ⟨r, s', w', h₁, hemit, hsame, hdone, hcounts.path_eq, hcounts.append_eq,
      hcounts.outlet_eq, by rw [hcounts.heard, houtlet], hcounts.counted, hcounts.answer⟩
  | some fate =>
    rw [hp] at hleft hfate
    obtain ⟨⟨e, rfl⟩, hleft⟩ := hleft
    have hsilent := persistFate_silent _ _ _ _ _ hp
    have hkept : fate ≠ .kept := by
      intro h
      rw [h] at hsilent
      cases hsilent
    rw [hfate, Option.getD_some]
    have hemit : s.emit line w = (.error e, { s with file := some h₁ }, w₁) := by
      simp only [emit, hfile, ← recordOf.eq_1, henc, htell, hpersist]
    exact ⟨.error e, { s with file := some h₁ }, w₁, h₁, hemit, rfl, hleft.after hfollows, rfl, rfl,
      rfl, by simp [houtlet, hsilent], by simp [hkept], hkept⟩

/-- An emission does to the file, the outlet and the count what the fate of its line says. -/
theorem emit_fate (line : Text) (h : Handle) (s : Sink) (w : World) (hfile : s.file = some h)
    (hopen : h.closed = false) :
    ∃ r s' w' h', s.emit line w = (r, s', w') ∧ s'.file = some h' ∧
      Leaves h ((s.fate line w).tape h.append (bytesOf line) (h.tape w.disk)) w h' w' ∧
      Counts (recordOf line) (bytesOf line).length (s.fate line w) s w r s' w' := by
  cases henc : Utf8.encode (recordOf line) with
  | error u =>
    have hfate : s.fate line w = .untried := by simp [fate, hfile, henc]
    have hemit : s.emit line w = (.error (.passed (.unwritable .utf8 u)), s, w) := by
      simp only [emit, hfile, ← recordOf.eq_1, henc]
    obtain ⟨hleft, hcounts⟩ :=
      untried_leaves line s w (.passed (.unwritable .utf8 u)) (.refl h) rfl
    rw [← hfile] at hcounts
    rw [hfate]
    exact ⟨_, s, w, h, hemit, hfile, hleft, hcounts⟩
  | ok data =>
    obtain rfl := encode_record line data henc
    rcases htell : h.tell with ⟨r, h₀⟩
    obtain ⟨htape, hoffset⟩ := tell_position w.disk htell
    cases r with
    | error f =>
      have hfate : s.fate line w = .untried := by simp [fate, hfile, henc, htell]
      have hemit : s.emit line w = (.error (f.toFailure Fault.isExpected (.cannotWrite s.path)),
          { s with file := some h₀ }, w) := by
        simp only [emit, hfile, ← recordOf.eq_1, henc, htell]
      obtain ⟨hleft, hcounts⟩ :=
        untried_leaves line s w (f.toFailure Fault.isExpected (.cannotWrite s.path))
          (by simpa [htell] using h.tell_follows) (congrArg Tape.position htape)
      rw [hfate]
      exact ⟨_, _, w, h₀, hemit, rfl, hleft, hcounts⟩
    | ok offset =>
      obtain rfl := hoffset offset rfl
      exact emit_told line hfile hopen henc htell

/-- A sink that was opened stands at the end of what the file begins with. -/
theorem acquire_closed {s₀ s : Sink} {w v : World} (closed : s₀.file = none)
    (opened : s₀.acquire w = (.ok (), s, v)) :
    ∃ h l, s = { s₀ with file := some h } ∧
      w.disk.Extends v.disk ∧ w.disk.locate s₀.path = .ok l ∧ h.append = s₀.append ∧
      h.closed = false ∧ v.stdout = w.stdout ∧ v.disk.locate s₀.path = .ok l ∧
      v.disk.node? l = some (.file h.id) ∧
      h.tape v.disk = ⟨w.disk.base s₀.path s₀.append, (w.disk.base s₀.path s₀.append).length⟩ := by
  simp only [acquire, closed, Handle.acquire, bind, Except.bind] at opened
  rcases hd : w.disk.acquire s₀.path s₀.append with f | ⟨id, d⟩
  · simp [hd] at opened
  · simp only [hd, pure, Except.pure, Prod.mk.injEq, true_and] at opened
    obtain ⟨rfl, rfl⟩ := opened
    obtain ⟨l, hbefore, hl, hn, hextends, -⟩ := Disk.acquire_frame hd
    have hbase := Disk.acquire_base hd
    refine ⟨_, l, rfl, hextends, hbefore, rfl, rfl, rfl, hl, hn, ?_⟩
    cases happend : s₀.append with
    | true =>
      rw [happend] at hbase
      simp [Handle.tape, World.log, hbase]
    | false =>
      rw [happend] at hbase
      simp [Handle.tape, World.log, hbase, Disk.base]

theorem acquire_opened {path : Path} {append : Bool} {outlet : Option Outlet} {w v : World}
    {s : Sink} (opened : (make path append outlet).acquire w = (.ok (), s, v)) :
    ∃ h l, s = { make path append outlet with file := some h } ∧
      w.disk.Extends v.disk ∧ w.disk.locate path = .ok l ∧ h.append = append ∧
      h.closed = false ∧ v.stdout = w.stdout ∧ v.disk.locate path = .ok l ∧
      v.disk.node? l = some (.file h.id) ∧
      h.tape v.disk = ⟨w.disk.base path append, (w.disk.base path append).length⟩ :=
  acquire_closed rfl opened

theorem acquire_disk {path : Path} {append : Bool} {w v : World} {s : Sink}
    (opened : (make path append none).acquire w = (.ok (), s, v)) :
    ∃ i, w.disk.acquire path append = .ok (i, v.disk) := by
  simp only [acquire, make, Handle.acquire, bind, Except.bind] at opened
  rcases hd : w.disk.acquire path append with f | ⟨i, d⟩
  · simp [hd] at opened
  · simp only [hd, pure, Except.pure, Prod.mk.injEq, true_and] at opened
    obtain ⟨-, rfl⟩ := opened
    exact ⟨i, rfl⟩

end Sink

end HostTelemetry
