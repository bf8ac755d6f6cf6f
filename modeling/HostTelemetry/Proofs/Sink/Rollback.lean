import HostTelemetry.Proofs.Sink.Fate

/-!
# Rolling back over a session

Cutting a record off again restores the length of the file and not the position of the handle.
After a write that failed with some bytes taken the position is stale. A truncating sink then
leaves a gap in front of whatever it tries next; an appending sink leaves remains only if the next
write fails too. Both are final: the file is its base and the whole records exactly as long as
neither has happened.
-/

set_option autoImplicit false

namespace HostTelemetry.Sink

def emitAll : List Text → Sink → World → Sink × World
  | [], s, w => (s, w)
  | line :: lines, s, w =>
    let (_, s, w) := s.emit line w
    emitAll lines s w

def fates : List Text → Sink → World → List (Text × Fate)
  | [], _, _ => []
  | line :: lines, s, w =>
    let (_, s', w') := s.emit line w
    (line, s.fate line w) :: fates lines s' w'

def filed (fs : List (Text × Fate)) : Bytes :=
  fs.flatMap fun f => if f.2.isFiled then bytesOf f.1 else []

/-- Nothing is tried while the position is stale, or, if writes go to the end, nothing fails. -/
def Undisturbed (append : Bool) : (stale : Bool) → List (Text × Fate) → Prop
  | _, [] => True
  | stale, (_, .untried) :: fs => Undisturbed append stale fs
  | stale, (_, .cut taken _) :: fs => stale = false ∧ Undisturbed append (decide (0 < taken)) fs
  | stale, _ :: fs => (append = true ∨ stale = false) ∧ Undisturbed append false fs

instance decidableUndisturbed (append : Bool) :
    (stale : Bool) → (fs : List (Text × Fate)) → Decidable (Undisturbed append stale fs)
  | _, [] => .isTrue trivial
  | stale, (_, .untried) :: fs => decidableUndisturbed append stale fs
  | _, (_, .cut taken _) :: fs =>
    have := decidableUndisturbed append (decide (0 < taken)) fs
    inferInstanceAs (Decidable (_ ∧ _))
  | _, (_, .unsynced) :: fs | _, (_, .unheard) :: fs | _, (_, .unflushed) :: fs
  | _, (_, .kept) :: fs =>
    have := decidableUndisturbed append false fs
    inferInstanceAs (Decidable (_ ∧ _))

/-- A failed write was undone, and had not taken everything. -/
def Undone (f : Text × Fate) : Prop :=
  ∀ taken undone, f.2 = .cut taken undone → taken < (bytesOf f.1).length ∧ undone = true

def tapeAfter (append : Bool) : List (Text × Fate) → Tape → Tape
  | [], t => t
  | (line, fate) :: fs, t => tapeAfter append fs (fate.tape append (bytesOf line) t)

theorem bytesOf_ne_nil (line : Text) : bytesOf line ≠ [] := by
  simp [bytesOf, recordOf, Utf8.encodeOne]

theorem filed_cons_filed (line : Text) (fate : Fate) (fs : List (Text × Fate))
    (h : fate.isFiled) : filed ((line, fate) :: fs) = bytesOf line ++ filed fs := by
  simp [filed, h]

theorem filed_cons_lost (line : Text) (fate : Fate) (fs : List (Text × Fate))
    (h : fate.isFiled = false) : filed ((line, fate) :: fs) = filed fs := by
  simp [filed, h]

def keptAll (lines : List Text) : List (Text × Fate) := lines.map fun line => (line, .kept)

theorem tapeAfter_append (append : Bool) (fs gs : List (Text × Fate)) (t : Tape) :
    tapeAfter append (fs ++ gs) t = tapeAfter append gs (tapeAfter append fs t) := by
  induction fs generalizing t with
  | nil => rfl
  | cons f fs ih => exact ih _

theorem tapeAfter_kept (append : Bool) (lines : List Text) (base : Bytes) :
    tapeAfter append (keptAll lines) ⟨base, base.length⟩ =
      ⟨base ++ written lines, (base ++ written lines).length⟩ := by
  induction lines generalizing base with
  | nil => simp [keptAll, tapeAfter, written]
  | cons line lines ih =>
    have hput : (Fate.kept).tape append (bytesOf line) ⟨base, base.length⟩ =
        ⟨base ++ bytesOf line, (base ++ bytesOf line).length⟩ := Tape.put_at_end ..
    have hrest := ih (base ++ bytesOf line)
    simp only [keptAll, List.map_cons, tapeAfter, hput]
    simpa [keptAll, written, List.append_assoc] using hrest

theorem tapeAfter_past (append : Bool) (fs : List (Text × Fate)) (t : Tape) (n : Nat)
    (hundone : ∀ f ∈ fs, Undone f) (hbytes : n < t.bytes.length) (hpos : n < t.position) :
    n + (filed fs).length < (tapeAfter append fs t).bytes.length := by
  induction fs generalizing t n with
  | nil => simpa [filed, tapeAfter] using hbytes
  | cons f fs ih =>
    obtain ⟨line, fate⟩ := f
    have hrest : ∀ f ∈ fs, Undone f := fun f hf => hundone f (List.mem_cons_of_mem _ hf)
    by_cases hfiled : fate.isFiled
    · obtain ⟨hb, hp⟩ := t.put_past append (bytesOf_ne_nil line) hbytes hpos
      have h := ih (fate.tape append (bytesOf line) t) (n + (bytesOf line).length) hrest
        (by rwa [Fate.tape_of_filed _ _ _ hfiled]) (by rwa [Fate.tape_of_filed _ _ _ hfiled])
      rw [filed_cons_filed line fate fs hfiled, List.length_append]
      simpa [tapeAfter, Nat.add_assoc] using h
    · rw [filed_cons_lost line fate fs (by simpa using hfiled)]
      cases fate with
      | untried => exact ih t n hrest hbytes hpos
      | cut taken undone =>
        obtain ⟨-, rfl⟩ := hundone _ (List.mem_cons_self ..) taken undone rfl
        apply ih _ n hrest
        · simpa [Fate.tape, Tape.cut, resized_length] using hpos
        · exact Tape.lt_put_position _ _ (Nat.le_of_lt hbytes) hpos
      | _ => simp [Fate.isFiled] at hfiled

/-- Wherever the position is, the file is base and whole records exactly if nothing is disturbed. -/
def Restores (append : Bool) (fs : List (Text × Fate)) : Prop :=
  ∀ (base : Bytes) (position : Nat), base.length ≤ position →
    ((tapeAfter append fs ⟨base, position⟩).bytes = base ++ filed fs ↔
      Undisturbed append (decide (base.length < position)) fs)

theorem restores_filed {append : Bool} {line : Text} {fate : Fate} {fs : List (Text × Fate)}
    (hfiled : fate.isFiled) (hrest : ∀ f ∈ fs, Undone f) (ih : Restores append fs) :
    Restores append ((line, fate) :: fs) := by
  intro base position hpos
  have hright : Undisturbed append (decide (base.length < position)) ((line, fate) :: fs) ↔
      (append = true ∨ decide (base.length < position) = false) ∧ Undisturbed append false fs := by
    cases fate <;> first | rfl | simp [Fate.isFiled] at hfiled
  rw [hright, tapeAfter, Fate.tape_of_filed _ _ _ hfiled, filed_cons_filed line fate fs hfiled,
    ← List.append_assoc]
  rcases Tape.put_places append (bytesOf_ne_nil line) hpos with
    ⟨hplace, hput⟩ | ⟨happend, hstale, hbytes, hp⟩
  · have hend := ih (base ++ bytesOf line) (base ++ bytesOf line).length (Nat.le_refl _)
    rw [decide_eq_false (Nat.lt_irrefl _)] at hend
    have hfree : append = true ∨ decide (base.length < position) = false :=
      hplace.imp_right fun h => by simp [h]
    rw [hput, hend]
    exact (and_iff_right hfree).symm
  · have hlost := tapeAfter_past append fs _ _ hrest hbytes hp
    constructor
    · intro heq
      rw [heq, ← List.length_append] at hlost
      exact absurd hlost (Nat.lt_irrefl _)
    · intro h
      simp [happend, hstale] at h

/-- A write that fails and is undone leaves the position as far behind the end as it had come. -/
theorem restores_cut {append : Bool} {line : Text} {taken : Nat} {fs : List (Text × Fate)}
    (htaken : taken < (bytesOf line).length) (hrest : ∀ f ∈ fs, Undone f)
    (ih : Restores append fs) : Restores append ((line, .cut taken true) :: fs) := by
  intro base position hpos
  rw [filed_cons_lost line _ fs rfl]
  by_cases hstale : base.length < position
  · have hlost := tapeAfter_past append fs
      ((Fate.cut taken true).tape append (bytesOf line) ⟨base, position⟩) base.length hrest
      (by simpa [Fate.tape, Tape.cut, resized_length] using hstale)
      (Tape.lt_put_position _ _ (Nat.le_refl _) hstale)
    constructor
    · intro heq
      rw [tapeAfter] at heq
      rw [heq, List.length_append] at hlost
      exact absurd hlost (Nat.lt_irrefl _)
    · intro h
      simp [Undisturbed, hstale] at h
  · obtain rfl : position = base.length := by omega
    have hcut := Tape.put_cut_at_end append ((bytesOf line).take taken) base
    have hrun := ih base (base ++ (bytesOf line).take taken).length
      (by rw [List.length_append]; omega)
    have hlength : base.length < (base ++ (bytesOf line).take taken).length ↔ 0 < taken := by
      simp only [List.length_append, List.length_take]
      omega
    simp only [tapeAfter, Fate.tape, if_true, Undisturbed, hcut, hrun, hlength,
      Nat.lt_irrefl, decide_false, true_and]

theorem restores_of_undone {append : Bool} {fs : List (Text × Fate)}
    (hundone : ∀ f ∈ fs, Undone f) : Restores append fs := by
  induction fs with
  | nil =>
    intro base position _
    simp [tapeAfter, filed, Undisturbed]
  | cons f fs ih =>
    obtain ⟨line, fate⟩ := f
    have hrest : ∀ f ∈ fs, Undone f := fun f hf => hundone f (List.mem_cons_of_mem _ hf)
    by_cases hfiled : fate.isFiled
    · exact restores_filed hfiled hrest (ih hrest)
    · cases fate with
      | untried =>
        intro base position hpos
        rw [filed_cons_lost line _ fs rfl]
        exact ih hrest base position hpos
      | cut taken undone =>
        obtain ⟨htaken, rfl⟩ := hundone _ (List.mem_cons_self ..) taken undone rfl
        exact restores_cut htaken hrest (ih hrest)
      | _ => exact absurd rfl hfiled

/-- No truncation is planned to fail, and no write but with a fault that is caught. -/
structure Recovers (plan : Plan) : Prop where
  truncates : ∀ a ∈ plan.truncate, a = none
  writes : ∀ f, .fails f ∈ plan.write → f.isExpected

theorem Recovers.follows {h h' : Handle} (a : Recovers h.plan) (b : h.Follows h') :
    Recovers h'.plan :=
  ⟨fun p hp => a.truncates p (b.truncates.subset hp), fun f hf => a.writes f (b.writes.subset hf)⟩

theorem truncate_isOk (n : Nat) (h : Handle) (d : Disk) (hopen : h.closed = false)
    (hplan : Recovers h.plan) : (h.truncate n d).1.isOk := by
  have hnext : (nextPlanned h.plan.truncate).1 = none := by
    rcases ht : h.plan.truncate with _ | ⟨a, as⟩
    · rfl
    · exact hplan.truncates a (by simp [ht])
  simp [Handle.truncate, Handle.guarded, hnext, hopen, Except.isOk, Except.toBool]

theorem persistFate_cut {data : Bytes} {offset : Nat} {h : Handle} {d : Disk} {taken : Nat}
    {undone : Bool} (hopen : h.closed = false)
    (hf : persistFate data offset h d = some (.cut taken undone)) :
    taken < data.length ∧ ∃ f h' d', .fails f ∈ h.plan.write ∧ h.Follows h' ∧
      undone = (f.isExpected && (h'.truncate offset d').1.isOk) := by
  obtain ⟨hfollows, -, -, hr⟩ := h.writeAll_follows data d hopen
  unfold persistFate at hf
  rcases hw : h.writeAll data d with ⟨r, h', d'⟩
  rw [hw] at hf hfollows hr
  cases r with
  | error f =>
    obtain ⟨rfl, rfl⟩ := Fate.cut.inj (Option.some.inj hf)
    exact ⟨hr.1, f, h', d', hr.2, hfollows, rfl⟩
  | ok u =>
    dsimp only at hf
    split at hf <;> simp at hf

theorem persistFate_undone (data : Bytes) (offset : Nat) (h : Handle) (d : Disk)
    (hopen : h.closed = false) (hplan : Recovers h.plan) (taken : Nat) (undone : Bool)
    (hf : persistFate data offset h d = some (.cut taken undone)) :
    taken < data.length ∧ undone = true := by
  obtain ⟨htaken, f, h', d', hfails, hfollows, rfl⟩ := persistFate_cut hopen hf
  refine ⟨htaken, ?_⟩
  rw [hplan.writes f hfails, truncate_isOk offset h' d' (hfollows.closed_eq.trans hopen)
    (hplan.follows hfollows)]
  rfl

theorem persistFate_of_fate {line : Text} {h : Handle} {s : Sink} {w : World} {taken : Nat}
    {undone : Bool} (hfile : s.file = some h) (hf : s.fate line w = .cut taken undone) :
    ∃ h' offset, h.Follows h' ∧
      persistFate (bytesOf line) offset h' w.disk = some (.cut taken undone) := by
  simp only [fate, hfile] at hf
  rcases henc : Utf8.encode (recordOf line) with u | data
  · simp [henc] at hf
  rcases htell : h.tell with ⟨r, h0⟩
  have hfollows : h.Follows h0 := by simpa [htell] using h.tell_follows
  cases r with
  | error f => simp [henc, htell] at hf
  | ok offset =>
    obtain rfl := encode_record line data henc
    simp only [henc, htell] at hf
    refine ⟨h0, offset, hfollows, ?_⟩
    rcases hp : persistFate (bytesOf line) offset h0 w.disk with _ | fate
    · rw [hp, Option.getD_none] at hf
      simpa [hf, Fate.isFiled] using echoFate_filed (recordOf line) (s.outletOf w)
    · rw [hp, Option.getD_some] at hf
      exact congrArg some hf

theorem fate_undone (line : Text) (h : Handle) (s : Sink) (w : World) (hfile : s.file = some h)
    (hopen : h.closed = false) (hplan : Recovers h.plan) : Undone (line, s.fate line w) := by
  intro taken undone hf
  obtain ⟨h', offset, hfollows, hp⟩ := persistFate_of_fate hfile hf
  exact persistFate_undone _ offset h' w.disk (hfollows.closed_eq.trans hopen)
    (hplan.follows hfollows) taken undone hp

theorem emitAll_leaves (lines : List Text) (h : Handle) (s : Sink) (w : World)
    (hfile : s.file = some h) (hopen : h.closed = false) :
    ∃ h', (emitAll lines s w).1.file = some h' ∧
      Leaves h (tapeAfter h.append (fates lines s w) (h.tape w.disk)) w h' (emitAll lines s w).2 ∧
      (Recovers h.plan → ∀ f ∈ fates lines s w, Undone f) := by
  induction lines generalizing h s w with
  | nil => exact ⟨h, hfile, ⟨.refl h, rfl, (Disk.setContent_self _ _).symm⟩, by simp [fates]⟩
  | cons line lines ih =>
    obtain ⟨r, s1, w1, h1, hemit, hfile1, hleft, -⟩ := emit_fate line h s w hfile hopen
    obtain ⟨h2, hfile2, hleft2, hundone⟩ :=
      ih h1 s1 w1 hfile1 (hleft.follows.closed_eq.trans hopen)
    rw [hleft.tape, hleft.follows.append_eq] at hleft2
    refine ⟨h2, by simpa [emitAll, hemit] using hfile2, ?_, ?_⟩
    · simp only [emitAll, fates, hemit, tapeAfter]
      exact hleft.trans hleft2
    · intro hplan f hf
      simp only [fates, hemit, List.mem_cons] at hf
      obtain rfl | hf := hf
      · exact fate_undone line h s w hfile hopen hplan
      · exact hundone (hplan.follows hleft.follows) f hf

/-- With truncations that succeed and writes that fail in expected ways, the file of a session is
its base and the whole records in order exactly if no line was tried at a stale position. -/
theorem read_emitAll_iff (path : Path) (append : Bool) (outlet : Option Outlet) (w v : World)
    (s : Sink) (plan : Plan) (lines : List Text)
    (opened : (make path append outlet).acquire w = (.ok (), s, v)) (recovers : Recovers plan) :
    (emitAll lines (s.withPlan plan) v).2.disk.read path =
        .ok (w.disk.base path append ++ filed (fates lines (s.withPlan plan) v)) ↔
      Undisturbed append false (fates lines (s.withPlan plan) v) := by
  obtain ⟨h, l, rfl, -, -, happend, hopen, -, hl, hn, htape⟩ := acquire_opened opened
  generalize hs : withPlan plan { make path append outlet with file := some h } = s'
  obtain ⟨h', -, hleft, hundone⟩ :=
    emitAll_leaves lines { h with plan := plan } s' v (by rw [← hs]; rfl) hopen
  have hread : (emitAll lines s' v).2.disk.read path =
      .ok (tapeAfter append (fates lines s' v) (h.tape v.disk)).bytes := by
    rw [hleft.disk, ← happend,
      Disk.read_of_node (Disk.locate_extends (v.disk.setContent_extends _ _) path l hl) hn]
    simp [Handle.tape]
  -- A file is opened at its end, so the position is not stale to begin with.
  have hrestores : Restores append (fates lines s' v) := restores_of_undone (hundone recovers)
  have hiff := hrestores (w.disk.base path append) (w.disk.base path append).length (Nat.le_refl _)
  rw [decide_eq_false (Nat.lt_irrefl _), ← htape] at hiff
  rw [hread, ← hiff, Except.ok.injEq]

def halfway : Plan := ⟨[], [.atMost 3, .fails (.system 28 none)], [], [], []⟩

theorem halfway_recovers : Recovers halfway := by
  constructor
  · simp [halfway]
  · intro f hf
    obtain rfl : f = .system 28 none := by simpa [halfway] using hf
    decide

theorem read_emitAll_appended :
    ∃ s v, (make ⟨0, [lit "f"]⟩ true none).acquire
          ⟨Disk.empty.create (Disk.here ++ [[102]]) [111, 10], .ofKind .unicode, []⟩ =
        (.ok (), s, v) ∧
      Recovers halfway ∧
      (emitAll [lit "abcdef", lit "xyz"] (s.withPlan halfway) v).2.disk.read ⟨0, [lit "f"]⟩ =
        .ok [111, 10, 120, 121, 122, 10] := by
  have hiff := read_emitAll_iff ⟨0, [lit "f"]⟩ true none
    ⟨Disk.empty.create (Disk.here ++ [[102]]) [111, 10], .ofKind .unicode, []⟩ _ _ halfway
    [lit "abcdef", lit "xyz"] rfl halfway_recovers
  exact ⟨_, _, rfl, halfway_recovers, hiff.2 (by decide)⟩

/-- A truncating sink leaves a gap after a write that failed halfway. -/
theorem read_emitAll_gap :
    ¬ ∀ (path : Path) (append : Bool) (outlet : Option Outlet) (w v : World) (s : Sink)
        (plan : Plan) (lines : List Text),
      (make path append outlet).acquire w = (.ok (), s, v) → Recovers plan →
      (emitAll lines (s.withPlan plan) v).2.disk.read path =
        .ok (w.disk.base path append ++ filed (fates lines (s.withPlan plan) v)) := by
  intro claimed
  have hread := claimed ⟨0, [lit "f"]⟩ false none ⟨.empty, .ofKind .unicode, []⟩ _ _ _
    [lit "abcdef", lit "xyz"] rfl halfway_recovers
  have hfile : (Except.ok [0, 0, 0, 120, 121, 122, 10] : Except Fault Bytes) =
    .ok [120, 121, 122, 10] := hread
  simp at hfile

end HostTelemetry.Sink
