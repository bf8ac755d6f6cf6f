import HostTelemetry.Proofs.Sink.Rollback

/-!
# The outlet shows what is on the disk

A record is echoed only after all its bytes were written and brought to the disk. From then on the
file and the position of the handle are both past its end, whatever fails afterwards: a write
begins no earlier, and a file is cut back to a position only. So the record stays where it is, and
records that are echoed later stand behind it. A call may also be planned to fail with an
interrupt, which nothing handles; what holds after every session under every plan therefore holds
between any two calls of a session.
-/

set_option autoImplicit false

namespace HostTelemetry

theorem overwrite_take (bs : Bytes) {p n : Nat} (data : Bytes) (hbytes : n ≤ bs.length)
    (hp : n ≤ p) : (overwrite bs p data).take n = bs.take n := by
  have hfront : n ≤ (bs.take p).length := by
    rw [List.length_take]
    omega
  rw [overwrite, List.append_assoc, List.append_assoc, List.take_append_of_le_length hfront,
    List.take_take, Nat.min_eq_left hp]

theorem overwrite_drop (bs : Bytes) (p : Nat) (data : Bytes) :
    (overwrite bs p data).drop p = data ++ bs.drop (p + data.length) := by
  have hfront : (bs.take p ++ List.replicate (p - bs.length) 0).length = p := by
    simp only [List.length_append, List.length_take, List.length_replicate]
    omega
  rw [overwrite, List.append_assoc, List.drop_left' hfront]

theorem resized_take (bs : Bytes) {m n : Nat} (hbytes : n ≤ bs.length) (hm : n ≤ m) :
    (resized bs m).take n = bs.take n := by
  have hfront : n ≤ (bs.take m).length := by
    rw [List.length_take]
    omega
  rw [resized, List.take_append_of_le_length hfront, List.take_take, Nat.min_eq_left hm]

def Stands (data : Bytes) (place : Nat) (bs : Bytes) : Prop :=
  (bs.drop place).take data.length = data

theorem Stands.of_take {data bs cs : Bytes} {place n : Nat} (a : Stands data place bs)
    (hn : place + data.length ≤ n) (hsame : cs.take n = bs.take n) : Stands data place cs := by
  have hblock : ∀ xs : Bytes, (xs.drop place).take data.length =
      ((xs.take n).drop place).take data.length := by
    intro xs
    rw [List.drop_take, List.take_take, Nat.min_eq_left (by omega)]
  rw [Stands, hblock, hsame, ← hblock]
  exact a

namespace Tape

def place (append : Bool) (t : Tape) : Nat := if append then t.bytes.length else t.position

/-- The first `n` bytes are the same, and the next write goes behind them in either mode. -/
structure Keeps (n : Nat) (t u : Tape) : Prop where
  bytes : n ≤ u.bytes.length
  position : n ≤ u.position
  same : u.bytes.take n = t.bytes.take n

variable {n : Nat} {t u : Tape}

theorem Keeps.place (a : Keeps n t u) (append : Bool) : n ≤ u.place append := by
  cases append with
  | false => exact a.position
  | true => exact a.bytes

theorem Keeps.stands {data : Bytes} {p : Nat} (a : Keeps n t u)
    (h : Stands data p t.bytes) (hn : p + data.length ≤ n) : Stands data p u.bytes :=
  h.of_take hn a.same

theorem put_bytes (append : Bool) {data : Bytes} (t : Tape) (hdata : data ≠ []) :
    (t.put append data).bytes = overwrite t.bytes (t.place append) data ∧
      (t.put append data).position = t.place append + data.length := by
  simp [put, Tape.place, hdata]

theorem Keeps.put (a : Keeps n t u) (append : Bool) (data : Bytes) :
    Keeps n t (u.put append data) := by
  by_cases hdata : data = []
  · rwa [hdata, put_nil]
  · obtain ⟨hbytes, hposition⟩ := put_bytes append u hdata
    have hplace := a.place append
    have hlength := a.bytes
    constructor
    · rw [hbytes, overwrite_length]
      omega
    · omega
    · rw [hbytes, overwrite_take _ _ hlength hplace, a.same]

theorem Keeps.cut {m : Nat} (a : Keeps n t u) (hm : n ≤ m) : Keeps n t (u.cut m) := by
  constructor
  · simpa [Tape.cut, resized_length] using hm
  · exact a.position
  · exact (resized_take _ a.bytes hm).trans a.same

theorem put_stands (append : Bool) {data : Bytes} (t : Tape) (hdata : data ≠ []) :
    Stands data (t.place append) (t.put append data).bytes ∧
      Keeps (t.place append + data.length) (t.put append data) (t.put append data) := by
  obtain ⟨hbytes, hposition⟩ := put_bytes append t hdata
  refine ⟨?_, ?_, Nat.le_of_eq hposition.symm, rfl⟩
  · rw [hbytes, Stands, overwrite_drop, List.take_left]
  · rw [hbytes, overwrite_length]
    omega

end Tape

namespace Sink

theorem Fate.keeps {n : Nat} {t u : Tape} (fate : Fate) (append : Bool) (data : Bytes)
    (a : t.Keeps n u) : t.Keeps n (fate.tape append data u) := by
  cases fate with
  | untried => exact a
  | cut taken undone =>
    simp only [Fate.tape]
    split
    · exact (a.put append _).cut a.position
    · exact a.put append _
  | _ => exact a.put append data

theorem tapeAfter_keeps {n : Nat} {t u : Tape} (append : Bool) (fs : List (Text × Fate))
    (a : t.Keeps n u) : t.Keeps n (tapeAfter append fs u) := by
  induction fs generalizing u with
  | nil => exact a
  | cons f fs ih => exact ih (f.2.keeps append (bytesOf f.1) a)

def outletText (s : Sink) (w : World) : Text := (s.outletOf w).text

def place (s : Sink) (w : World) : Nat :=
  match s.file with
  | none => 0
  | some h => (h.tape w.disk).place h.append

/-- The emission of a line changes the text of the outlet. -/
def Mirrors (line : Text) (s : Sink) (w : World) : Prop :=
  outletText (s.emit line w).2.1 (s.emit line w).2.2 ≠ outletText s w

instance (line : Text) (s : Sink) (w : World) : Decidable (Mirrors line s w) :=
  inferInstanceAs (Decidable (¬ _ = _))

def mirrored : List Text → Sink → World → List Text
  | [], _, _ => []
  | line :: lines, s, w =>
    let (_, s', w') := s.emit line w
    if Mirrors line s w then line :: mirrored lines s' w' else mirrored lines s' w'

def Persists (line : Text) (s : Sink) (w : World) (s' : Sink) (w' : World) : Prop :=
  ∃ h told offset writing d synced, s.file = some h ∧ h.tell = (.ok offset, told) ∧
    told.writeAll (bytesOf line) w.disk = (.ok (), writing, d) ∧
    writing.sync = (.ok (), synced) ∧ s' = { s with file := some synced } ∧
    w' = { w with disk := d }

theorem persist_ok {data : Bytes} {offset : Nat} {h : Handle} {s s' : Sink} {w w' : World}
    (hpersist : s.persist data offset h w = (.ok (), s', w')) :
    ∃ writing d synced, h.writeAll data w.disk = (.ok (), writing, d) ∧
      writing.sync = (.ok (), synced) ∧ s' = { s with file := some synced } ∧
      w' = { w with disk := d } := by
  unfold persist at hpersist
  rcases hwrite : h.writeAll data w.disk with ⟨r, writing, d⟩
  rw [hwrite] at hpersist
  cases r with
  | error f =>
    dsimp only at hpersist
    split at hpersist
    · split at hpersist <;> simp at hpersist
    · simp at hpersist
  | ok u =>
    dsimp only at hpersist
    rcases hsync : writing.sync with ⟨r, synced⟩
    rw [hsync] at hpersist
    cases r with
    | error f => simp at hpersist
    | ok u =>
      simp only [Prod.mk.injEq, true_and] at hpersist
      obtain ⟨rfl, rfl⟩ := hpersist
      exact ⟨writing, d, synced, rfl, hsync, rfl, rfl⟩

theorem emit_mirrors {line : Text} {h : Handle} {s : Sink} {w : World} (hfile : s.file = some h)
    (hopen : h.closed = false) (hmirrors : Mirrors line s w) :
    (s.fate line w).isHeard ∧
      outletText (s.emit line w).2.1 (s.emit line w).2.2 = outletText s w ++ recordOf line ∧
      ∃ s' w', Persists line s w s' w' ∧ outletText s' w' = outletText s w ∧
        s.emit line w = s'.echo (recordOf line) (bytesOf line).length w' := by
  obtain ⟨r, s₂, w₂, h₂, hemit, -, -, hcounts⟩ := emit_fate line h s w hfile hopen
  have hadded : outletText (s.emit line w).2.1 (s.emit line w).2.2 =
      outletText s w ++ (if (s.fate line w).isHeard then recordOf line else []) := by
    rw [hemit]
    exact hcounts.heard
  have hheard : (s.fate line w).isHeard := by
    cases hsilent : (s.fate line w).isHeard with
    | true => rfl
    | false => exact absurd (by simpa [hsilent] using hadded) hmirrors
  refine ⟨hheard, by rw [hadded, if_pos hheard], ?_⟩
  -- Every way out before the echo leaves the outlet as it was.
  have hfate : s.fate line w ≠ .untried := by
    intro huntried
    rw [huntried] at hheard
    cases hheard
  cases henc : Utf8.encode (recordOf line) with
  | error u => simp [fate, hfile, henc] at hfate
  | ok data =>
    obtain rfl := encode_record line data henc
    rcases htell : h.tell with ⟨r₀, told⟩
    cases r₀ with
    | error f => simp [fate, hfile, henc, htell] at hfate
    | ok offset =>
      have hfollows : h.Follows told := by simpa [htell] using h.tell_follows
      have hoffset := (tell_position w.disk htell).2 offset rfl
      obtain ⟨r₁, h₁, w₁, hpersist, hstdout, -⟩ :=
        persist_leaves (bytesOf line) told { s with file := some told } w
          (hfollows.closed_eq.trans hopen)
      rw [← hoffset] at hpersist
      have hsame : outletText { s with file := some h₁ } w₁ = outletText s w := by
        simp [outletText, outletOf, hstdout]
      cases r₁ with
      | error e =>
        have hemit : s.emit line w = (.error e, { s with file := some h₁ }, w₁) := by
          simp only [emit, hfile, ← recordOf.eq_1, henc, htell, hpersist]
        rw [Mirrors, hemit] at hmirrors
        exact absurd hsame hmirrors
      | ok u =>
        have hrest : s.emit line w =
            echo (recordOf line) (bytesOf line).length { s with file := some h₁ } w₁ := by
          simp only [emit, hfile, ← recordOf.eq_1, henc, htell, hpersist]
        obtain ⟨writing, d, synced, hwrite, hsync, hs₁, hw₁⟩ := persist_ok hpersist
        exact ⟨_, _, ⟨h, told, offset, writing, d, synced, hfile, htell, hwrite, hsync, hs₁, hw₁⟩,
          hsame, hrest⟩

theorem echo_disk (record : Text) (size : Nat) (s : Sink) (w : World) :
    (s.echo record size w).2.2.disk = w.disk := by
  obtain ⟨r, s', w', hecho, -, hdisk, -⟩ := echo_counts record size s w
  rw [hecho, hdisk]

theorem emitAll_append (xs ys : List Text) (s : Sink) (w : World) :
    emitAll (xs ++ ys) s w = emitAll ys (emitAll xs s w).1 (emitAll xs s w).2 := by
  induction xs generalizing s w with
  | nil => rfl
  | cons x xs ih => exact ih _ _

theorem emitAll_text (lines : List Text) {h : Handle} {s : Sink} {w : World}
    (hfile : s.file = some h) (hopen : h.closed = false) :
    outletText (emitAll lines s w).1 (emitAll lines s w).2 =
      outletText s w ++ shown (mirrored lines s w) := by
  induction lines generalizing h s w with
  | nil => simp [emitAll, mirrored, shown]
  | cons line lines ih =>
    obtain ⟨r, s₁, w₁, h₁, hemit, hfile₁, hleft, -⟩ := emit_fate line h s w hfile hopen
    have hrest := ih (w := w₁) hfile₁ (hleft.follows.closed_eq.trans hopen)
    simp only [emitAll, mirrored, hemit]
    rw [hrest]
    by_cases hmirrors : Mirrors line s w
    · have htext := (emit_mirrors hfile hopen hmirrors).2.1
      rw [hemit] at htext
      dsimp only at htext
      rw [if_pos hmirrors, htext]
      simp [shown, List.append_assoc]
    · have htext : outletText s₁ w₁ = outletText s w := by
        simpa [Mirrors, hemit] using hmirrors
      rw [if_neg hmirrors, htext]

/-- A record that was mirrored stands where it was put after any further lines, and the next
record goes behind it. -/
theorem emit_stands {line : Text} {h : Handle} {s : Sink} {w : World} (hfile : s.file = some h)
    (hopen : h.closed = false) (hmirrors : Mirrors line s w) (after : List Text) :
    let c := emitAll (line :: after) s w
    Stands (bytesOf line) (s.place w) (c.2.disk.content h.id) ∧
      s.place w + (bytesOf line).length ≤ c.1.place c.2 := by
  intro c
  obtain ⟨r, s₁, w₁, h₁, hemit, hfile₁, hleft, -⟩ := emit_fate line h s w hfile hopen
  obtain ⟨h₂, hfile₂, hleft₂, -⟩ :=
    emitAll_leaves after h₁ s₁ w₁ hfile₁ (hleft.follows.closed_eq.trans hopen)
  have hc : c = emitAll after s₁ w₁ := by
    simp only [c, emitAll, hemit]
  have hheard := (emit_mirrors hfile hopen hmirrors).1
  have hfiled : (s.fate line w).isFiled := by
    revert hheard
    cases s.fate line w <;> simp [Fate.isHeard, Fate.isFiled]
  have hplace : s.place w = (h.tape w.disk).place h.append := by simp [place, hfile]
  rw [Fate.tape_of_filed _ _ _ hfiled] at hleft
  rw [hleft.tape, hleft.follows.append_eq] at hleft₂
  obtain ⟨hstands, hkeeps⟩ := (h.tape w.disk).put_stands h.append (bytesOf_ne_nil line)
  have hafter := tapeAfter_keeps h.append (fates after s₁ w₁) hkeeps
  rw [hplace, hc]
  constructor
  · have hstill := hafter.stands hstands (Nat.le_refl _)
    simpa [hleft₂.disk, hleft.follows.id_eq] using hstill
  · have hnext := hafter.place h.append
    have hend : (emitAll after s₁ w₁).1.place (emitAll after s₁ w₁).2 =
        (h₂.tape (emitAll after s₁ w₁).2.disk).place h₂.append := by simp [place, hfile₂]
    rw [hend, hleft₂.tape, hleft₂.follows.append_eq, hleft.follows.append_eq]
    exact hnext

/-- A record is on the disk before it is on the outlet, and stays. For every session from opening
on, every plan of failures and every stream: the outlet holds, after what it held before, the
mirrored records in order; each was written and synced while the outlet was still unchanged, is
echoed once, and stands from then on where it was put, behind the records mirrored earlier. -/
theorem emitAll_mirrors {s₀ s : Sink} {w v : World} (closed : s₀.file = none)
    (opened : s₀.acquire w = (.ok (), s, v)) (plan : Plan) :
    (∀ lines,
      let e := emitAll lines (s.withPlan plan) v
      outletText e.1 e.2 = outletText s₀ w ++ shown (mirrored lines (s.withPlan plan) v)) ∧
    ∀ before line,
      let a := emitAll before (s.withPlan plan) v
      let b := a.1.emit line a.2
      Mirrors line a.1 a.2 →
      outletText b.2.1 b.2.2 = outletText a.1 a.2 ++ recordOf line ∧
      (∃ s' w' bs, Persists line a.1 a.2 s' w' ∧ outletText s' w' = outletText a.1 a.2 ∧
        w'.disk.read s₀.path = .ok bs ∧ Stands (bytesOf line) (a.1.place a.2) bs ∧
        b = s'.echo (recordOf line) (bytesOf line).length w') ∧
      ∀ after,
        let c := emitAll (before ++ line :: after) (s.withPlan plan) v
        a.1.place a.2 + (bytesOf line).length ≤ c.1.place c.2 ∧
        ∃ bs, c.2.disk.read s₀.path = .ok bs ∧ Stands (bytesOf line) (a.1.place a.2) bs := by
  obtain ⟨h, l, rfl, -, -, -, hopen, hstdout, hl, hn, -⟩ := acquire_closed closed opened
  generalize hs : withPlan plan { s₀ with file := some h } = s'
  have hfile : s'.file = some { h with plan := plan } := by rw [← hs]; rfl
  have htext : outletText s' v = outletText s₀ w := by
    rw [← hs]
    simp [outletText, outletOf, withPlan, hstdout]
  have hread : ∀ d : Disk, (∃ bs, d = v.disk.setContent h.id bs) →
      d.read s₀.path = .ok (d.content h.id) := by
    rintro d ⟨bs, rfl⟩
    exact Disk.read_of_node (Disk.locate_extends (v.disk.setContent_extends _ _) _ l hl) hn
  constructor
  · intro lines e
    rw [emitAll_text lines hfile hopen, htext]
  · intro before line a b hmirrors
    obtain ⟨h₁, hfile₁, hleft, -⟩ := emitAll_leaves before _ s' v hfile hopen
    have hopen₁ : h₁.closed = false := hleft.follows.closed_eq.trans hopen
    obtain ⟨-, hadded, s₂, w₂, hpersists, hsame, hecho⟩ := emit_mirrors hfile₁ hopen₁ hmirrors
    have hstays : ∀ after,
        let c := emitAll (before ++ line :: after) s' v
        a.1.place a.2 + (bytesOf line).length ≤ c.1.place c.2 ∧
        ∃ bs, c.2.disk.read s₀.path = .ok bs ∧ Stands (bytesOf line) (a.1.place a.2) bs := by
      intro after c
      obtain ⟨hstands, hbehind⟩ := emit_stands hfile₁ hopen₁ hmirrors after
      have hc : c = emitAll (line :: after) a.1 a.2 := emitAll_append before _ s' v
      obtain ⟨h₂, -, hleft₂, -⟩ := emitAll_leaves (before ++ line :: after) _ s' v hfile hopen
      rw [hleft.follows.id_eq, ← hc] at hstands
      rw [← hc] at hbehind
      exact ⟨hbehind, _, hread c.2.disk ⟨_, hleft₂.disk⟩, hstands⟩
    -- The echo does not touch the disk, so what it finds there is what it leaves.
    have hdisk : w₂.disk = (emitAll (before ++ [line]) s' v).2.disk := by
      have hlast : emitAll (before ++ [line]) s' v = b.2 := emitAll_append before _ s' v
      rw [hlast, show b = _ from hecho, echo_disk]
    obtain ⟨-, bs, hbytes, hstands⟩ := hstays []
    exact ⟨hadded, ⟨s₂, w₂, bs, hpersists, hsame, hdisk ▸ hbytes, hstands, hecho⟩, hstays⟩

theorem emitAll_mirrors_halfway :
    let s₀ := make ⟨0, [lit "f"]⟩ false none
    let w : World := ⟨.empty, .ofKind .unicode, []⟩
    let s := (s₀.acquire w).2.1
    let v := (s₀.acquire w).2.2
    let a := emitAll [lit "abcdef"] (s.withPlan halfway) v
    s₀.file = none ∧ s₀.acquire w = (.ok (), s, v) ∧ Mirrors (lit "xyz") a.1 a.2 ∧
      ∃ bs, (emitAll [lit "abcdef", lit "xyz", lit "u"] (s.withPlan halfway) v).2.disk.read
          s₀.path = .ok bs ∧
        Stands (bytesOf (lit "xyz")) (a.1.place a.2) bs := by
  intro s₀ w s v a
  have hopened : s₀.acquire w = (.ok (), s, v) := rfl
  have hxyz : Mirrors (lit "xyz") a.1 a.2 := by decide
  have hsession := emitAll_mirrors rfl hopened halfway
  exact ⟨rfl, hopened, hxyz, ((hsession.2 [lit "abcdef"] (lit "xyz") hxyz).2.2 [lit "u"]).2⟩

end Sink

end HostTelemetry
