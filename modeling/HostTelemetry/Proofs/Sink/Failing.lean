import HostTelemetry.Proofs.Sink.Fate
import HostTelemetry.Proofs.Text.Ascii

/-!
# How an emission fails

A call on the file or the stream fails as it is planned to, and the emission wraps the fault in a
failure of its own that keeps it as the cause. Faults of the system and of values are expected from
every call, except that the sync expects those of the system only; what is not expected passes
through.
-/

set_option autoImplicit false

namespace HostTelemetry

theorem nextPlanned_mem {as : List Planned} {f : Fault} (h : (nextPlanned as).1 = some f) :
    some f ∈ as := by
  cases as with
  | nil => cases h
  | cons a as =>
    rw [← h]
    exact List.mem_cons_self ..

structure Plan.Within (p q : Plan) : Prop where
  tell : p.tell <:+ q.tell
  write : p.write <:+ q.write
  truncate : p.truncate <:+ q.truncate
  sync : p.sync <:+ q.sync
  close : p.close <:+ q.close

theorem Plan.Within.refl (p : Plan) : p.Within p :=
  ⟨List.suffix_rfl, List.suffix_rfl, List.suffix_rfl, List.suffix_rfl, List.suffix_rfl⟩

theorem Plan.Within.trans {p q r : Plan} (a : p.Within q) (b : q.Within r) : p.Within r :=
  ⟨a.tell.trans b.tell, a.write.trans b.write, a.truncate.trans b.truncate, a.sync.trans b.sync,
    a.close.trans b.close⟩

namespace Handle

structure Spends (h h' : Handle) : Prop where
  closed_eq : h'.closed = h.closed
  plan : h'.plan.Within h.plan

theorem Spends.trans {h h' h'' : Handle} (a : h.Spends h') (b : h'.Spends h'') : h.Spends h'' :=
  ⟨b.closed_eq.trans a.closed_eq, b.plan.trans a.plan⟩

theorem guarded_error {α : Type} {h : Handle} {planned : Planned} {go : α} {f : Fault}
    (hopen : h.closed = false) (hf : h.guarded planned go = .error f) : planned = some f := by
  unfold guarded at hf
  split at hf
  · cases hf
    rfl
  · rw [hopen] at hf
    cases hf

theorem tell_spends (h : Handle) : h.Spends h.tell.2 :=
  ⟨rfl, ⟨nextPlanned_suffix _, List.suffix_rfl, List.suffix_rfl, List.suffix_rfl, List.suffix_rfl⟩⟩

theorem tell_fails {h : Handle} {f : Fault} (hopen : h.closed = false)
    (hf : h.tell.1 = .error f) : some f ∈ h.plan.tell :=
  nextPlanned_mem (guarded_error hopen hf)

theorem sync_spends (h : Handle) : h.Spends h.sync.2 :=
  ⟨rfl, ⟨List.suffix_rfl, List.suffix_rfl, List.suffix_rfl, nextPlanned_suffix _, List.suffix_rfl⟩⟩

theorem sync_fails {h : Handle} {f : Fault} (hopen : h.closed = false)
    (hf : h.sync.1 = .error f) : some f ∈ h.plan.sync :=
  nextPlanned_mem (guarded_error hopen hf)

theorem truncate_spends (n : Nat) (h : Handle) (d : Disk) : h.Spends (h.truncate n d).2.1 := by
  have hspent : h.Spends
      { h with plan := { h.plan with truncate := (nextPlanned h.plan.truncate).2 } } :=
    ⟨rfl, ⟨List.suffix_rfl, List.suffix_rfl, nextPlanned_suffix _, List.suffix_rfl,
      List.suffix_rfl⟩⟩
  unfold truncate
  dsimp only
  split <;> exact hspent

theorem truncate_fails {n : Nat} {h : Handle} {d : Disk} {f : Fault} (hopen : h.closed = false)
    (hf : (h.truncate n d).1 = .error f) : some f ∈ h.plan.truncate := by
  unfold truncate at hf
  dsimp only at hf
  split at hf
  · rename_i g hg
    cases hf
    exact nextPlanned_mem (guarded_error hopen hg)
  · cases hf

theorem writeAll_spends (data : Bytes) {h : Handle} (d : Disk) (hopen : h.closed = false) :
    h.Spends (h.writeAll data d).2.1 := by
  obtain ⟨r, rest, hsteps, hrest, -⟩ := writeSteps_settle h.plan.write data h d hopen
  simp only [writeAll, hsteps, settle]
  exact ⟨rfl, ⟨List.suffix_rfl, hrest, List.suffix_rfl, List.suffix_rfl, List.suffix_rfl⟩⟩

theorem writeAll_fails {data : Bytes} {h : Handle} {d : Disk} {f : Fault}
    (hopen : h.closed = false) (hf : (h.writeAll data d).1 = .error f) :
    .fails f ∈ h.plan.write := by
  obtain ⟨-, -, -, hr⟩ := h.writeAll_follows data d hopen
  rw [hf] at hr
  exact hr.2

theorem close_fails {h : Handle} {f : Fault} (hf : h.close = .error f) : some f ∈ h.plan.close := by
  unfold close at hf
  split at hf
  · rename_i g hg
    cases hf
    exact nextPlanned_mem hg
  · cases hf

end Handle

namespace Outlet

structure Within (o o' : Outlet) : Prop where
  kind_eq : o.kind = o'.kind
  writes : o.writes <:+ o'.writes
  flushes : o.flushes <:+ o'.flushes

theorem Within.refl (o : Outlet) : o.Within o := ⟨rfl, List.suffix_rfl, List.suffix_rfl⟩

theorem Within.trans {o o' o'' : Outlet} (a : o.Within o') (b : o'.Within o'') : o.Within o'' :=
  ⟨a.kind_eq.trans b.kind_eq, a.writes.trans b.writes, a.flushes.trans b.flushes⟩

def Fails (o : Outlet) (f : Fault) : Prop :=
  some f ∈ o.writes ∨ some f ∈ o.flushes ∨ o.kind = .closed ∧ f = .closed

theorem Fails.of_within {o o' : Outlet} {f : Fault} (h : o.Fails f) (a : o.Within o') :
    o'.Fails f := by
  obtain h | h | h := h
  · exact Or.inl (a.writes.subset h)
  · exact Or.inr (Or.inl (a.flushes.subset h))
  · exact Or.inr (Or.inr ⟨a.kind_eq ▸ h.1, h.2⟩)

theorem refusal_ascii {o : Outlet} {t : Text} {f : Fault} (ht : Text.Ascii t)
    (hf : o.refusal t = some f) : o.kind = .closed ∧ f = .closed := by
  unfold refusal at hf
  split at hf
  · cases hf
  · rename_i hclosed
    cases hf
    exact ⟨hclosed, rfl⟩
  · rw [Utf8.refused_of_all fun c hc => decide_eq_true (ht c hc)] at hf
    cases hf

theorem write_within (t : Text) (o : Outlet) : (o.write t).2.Within o := by
  unfold write
  dsimp only
  split <;> exact ⟨rfl, Handle.nextPlanned_suffix _, List.suffix_rfl⟩

theorem write_fails {t : Text} {o : Outlet} {f : Fault} (ht : Text.Ascii t)
    (hf : (o.write t).1 = .error f) : o.Fails f := by
  unfold write at hf
  dsimp only at hf
  split at hf
  · rename_i g hg
    cases hf
    cases hplanned : (nextPlanned o.writes).1 with
    | some g' =>
      rw [hplanned] at hg
      obtain rfl := Option.some.inj hg
      exact Or.inl (nextPlanned_mem hplanned)
    | none =>
      rw [hplanned] at hg
      exact Or.inr (Or.inr (refusal_ascii ht hg))
  · cases hf

theorem flush_within (o : Outlet) : o.flush.2.Within o := by
  unfold flush
  dsimp only
  split <;> exact ⟨rfl, List.suffix_rfl, Handle.nextPlanned_suffix _⟩

theorem flush_fails {o : Outlet} {f : Fault} (hf : o.flush.1 = .error f) : o.Fails f := by
  unfold flush at hf
  dsimp only at hf
  split at hf
  · rename_i g hg
    cases hf
    exact Or.inr (Or.inl (nextPlanned_mem hg))
  · dsimp only at hf
    split at hf
    · rename_i hclosed
      cases hf
      exact Or.inr (Or.inr ⟨hclosed, rfl⟩)
    · cases hf

theorem send_within (t : Text) (o : Outlet) : (o.send t).2.Within o := by
  have hwrite := write_within t o
  unfold send
  split
  · rename_i hw
    rwa [hw] at hwrite
  · rename_i o' hw
    rw [hw] at hwrite
    exact (flush_within o').trans hwrite

theorem send_fails {t : Text} {o : Outlet} {f : Fault} (ht : Text.Ascii t)
    (hf : (o.send t).1 = .error f) : o.Fails f := by
  have hwrite := write_within t o
  unfold send at hf
  split at hf
  · rename_i g o' hw
    cases hf
    exact write_fails ht (by rw [hw])
  · rename_i o' hw
    rw [hw] at hwrite
    exact (flush_fails hf).of_within hwrite

end Outlet

theorem Fault.toFailure_cases (expected : Fault → Bool) (wrap : Fault → Failure) (f : Fault) :
    expected f ∧ f.toFailure expected wrap = wrap f ∨
      expected f = false ∧ f.toFailure expected wrap = .passed f := by
  unfold Fault.toFailure
  cases expected f with
  | true => exact Or.inl ⟨rfl, rfl⟩
  | false => exact Or.inr ⟨rfl, rfl⟩

namespace Sink

/-- The failures that a sink makes of the faults of its file and stream, each with its cause. -/
inductive Wraps (path : Path) (plan : Plan) (o : Outlet) : Failure → Fault → Prop
  | tell {g : Fault} (planned : some g ∈ plan.tell) : Wraps path plan o (.cannotWrite path g) g
  | write {g : Fault} (planned : .fails g ∈ plan.write) : Wraps path plan o (.cannotWrite path g) g
  | sync {g : Fault} (planned : some g ∈ plan.sync) : Wraps path plan o (.cannotFlush path g) g
  | echo {g : Fault} (fails : o.Fails g) : Wraps path plan o (.cannotEcho g) g
  | close {g : Fault} (planned : some g ∈ plan.close) : Wraps path plan o (.cannotClose path g) g

/-- The faults that a sink lets through: what it does not expect of the call they come from. -/
inductive Passes (plan : Plan) (o : Outlet) : Fault → Prop
  | tell {g : Fault} (planned : some g ∈ plan.tell) (unexpected : g.isExpected = false) :
    Passes plan o g
  | write {g : Fault} (planned : .fails g ∈ plan.write) (unexpected : g.isExpected = false) :
    Passes plan o g
  | truncate {g : Fault} (planned : some g ∈ plan.truncate) (unexpected : g.isExpected = false) :
    Passes plan o g
  | sync {g : Fault} (planned : some g ∈ plan.sync) (unexpected : g.isSystem = false) :
    Passes plan o g
  | echo {g : Fault} (fails : o.Fails g) (unexpected : g.isExpected = false) : Passes plan o g
  | close {g : Fault} (planned : some g ∈ plan.close) (unexpected : g.isExpected = false) :
    Passes plan o g

def Meets (path : Path) (plan : Plan) (o : Outlet) (f : Failure) : Prop :=
  (∃ g, Wraps path plan o f g) ∨ ∃ g, Passes plan o g ∧ f = .passed g

section

variable {path : Path} {plan plan' : Plan} {o o' : Outlet} {f : Failure} {g : Fault}

theorem Wraps.of_within (h : Wraps path plan o f g) (a : plan.Within plan') (b : o.Within o') :
    Wraps path plan' o' f g := by
  cases h with
  | tell planned => exact .tell (a.tell.subset planned)
  | write planned => exact .write (a.write.subset planned)
  | sync planned => exact .sync (a.sync.subset planned)
  | echo fails => exact .echo (fails.of_within b)
  | close planned => exact .close (a.close.subset planned)

theorem Passes.of_within (h : Passes plan o g) (a : plan.Within plan') (b : o.Within o') :
    Passes plan' o' g := by
  cases h with
  | tell planned unexpected => exact .tell (a.tell.subset planned) unexpected
  | write planned unexpected => exact .write (a.write.subset planned) unexpected
  | truncate planned unexpected => exact .truncate (a.truncate.subset planned) unexpected
  | sync planned unexpected => exact .sync (a.sync.subset planned) unexpected
  | echo fails unexpected => exact .echo (fails.of_within b) unexpected
  | close planned unexpected => exact .close (a.close.subset planned) unexpected

theorem Meets.of_within (h : Meets path plan o f) (a : plan.Within plan') (b : o.Within o') :
    Meets path plan' o' f := by
  obtain ⟨g, h⟩ | ⟨g, h, hf⟩ := h
  · exact Or.inl ⟨g, h.of_within a b⟩
  · exact Or.inr ⟨g, h.of_within a b, hf⟩

theorem meets_toFailure {expected : Fault → Bool} {wrap : Fault → Failure}
    (wraps : Wraps path plan o (wrap g) g) (passes : expected g = false → Passes plan o g) :
    Meets path plan o (g.toFailure expected wrap) := by
  obtain ⟨-, h⟩ | ⟨hno, h⟩ := g.toFailure_cases expected wrap
  · exact Or.inl ⟨g, h ▸ wraps⟩
  · exact Or.inr ⟨g, passes hno, h⟩

end

theorem acquire_fails {s₀ s : Sink} {w v : World} {f : Failure} (closed : s₀.file = none)
    (failed : s₀.acquire w = (.error f, s, v)) :
    s = s₀ ∧ v = w ∧ ∃ g, w.disk.acquire s₀.path s₀.append = .error g ∧
      f = g.toFailure Fault.isSystem (.cannotOpen s₀.path) := by
  simp only [acquire, closed, Handle.acquire, bind, Except.bind] at failed
  rcases hd : w.disk.acquire s₀.path s₀.append with g | ⟨id, d⟩
  · simp only [hd, Prod.mk.injEq, Except.error.injEq] at failed
    obtain ⟨rfl, rfl, rfl⟩ := failed
    exact ⟨rfl, rfl, g, rfl, rfl⟩
  · simp [hd, pure, Except.pure] at failed

structure Spent (h : Handle) (s : Sink) (w : World) (s' : Sink) (w' : World) : Prop where
  file : ∃ h', s' = { s with file := some h' } ∧ h.Spends h'
  stdout_eq : w'.stdout = w.stdout

theorem discard_meets (offset : Nat) {h : Handle} (s : Sink) (w : World) (o : Outlet)
    (hopen : h.closed = false) :
    ∃ r s' w', s.discard offset h w = (r, s', w') ∧ Spent h s w s' w' ∧
      ∀ f, r = .error f → Meets s.path h.plan o f := by
  have hspends := h.truncate_spends offset w.disk
  have hfails : ∀ f, (h.truncate offset w.disk).1 = .error f → some f ∈ h.plan.truncate :=
    fun f hf => Handle.truncate_fails hopen hf
  unfold discard
  rcases ht : h.truncate offset w.disk with ⟨r, h', d⟩
  rw [ht] at hspends hfails
  cases r with
  | ok u => exact ⟨_, _, _, rfl, ⟨⟨h', rfl, hspends⟩, rfl⟩, by simp⟩
  | error g =>
    dsimp only
    split
    · exact ⟨_, _, _, rfl, ⟨⟨h', rfl, hspends⟩, rfl⟩, by simp⟩
    · rename_i hunexpected
      refine ⟨_, _, _, rfl, ⟨⟨h', rfl, hspends⟩, rfl⟩, ?_⟩
      intro f hf
      cases hf
      exact Or.inr ⟨g, .truncate (hfails g rfl) (by simpa using hunexpected), rfl⟩

theorem Spent.trans {h h' : Handle} {s s' s'' : Sink} {w w' w'' : World}
    (a : h.Spends h') (hs : s' = { s with file := some h' }) (hw : w'.stdout = w.stdout)
    (b : Spent h' s' w' s'' w'') : Spent h s w s'' w'' := by
  obtain ⟨h'', rfl, hspends⟩ := b.file
  rw [hs]
  exact ⟨⟨h'', rfl, a.trans hspends⟩, b.stdout_eq.trans hw⟩

theorem persist_meets (data : Bytes) (offset : Nat) {h : Handle} (s : Sink) (w : World) (o : Outlet)
    (hopen : h.closed = false) :
    ∃ r s' w', s.persist data offset h w = (r, s', w') ∧ Spent h s w s' w' ∧
      ∀ f, r = .error f → Meets s.path h.plan o f := by
  have hspends := Handle.writeAll_spends data w.disk hopen
  have hfails : ∀ f, (h.writeAll data w.disk).1 = .error f → .fails f ∈ h.plan.write :=
    fun f hf => Handle.writeAll_fails hopen hf
  unfold persist
  rcases hwrite : h.writeAll data w.disk with ⟨r, h₁, d⟩
  rw [hwrite] at hspends hfails
  dsimp only at hspends hfails
  have hopen₁ : h₁.closed = false := hspends.closed_eq.trans hopen
  cases r with
  | error g =>
    dsimp only
    split
    · obtain ⟨r, s₂, w₂, hdiscard, hspent, hmeets⟩ :=
        discard_meets offset { s with file := some h₁ } { w with disk := d } o hopen₁
      have hstdout : ({ w with disk := d } : World).stdout = w.stdout := rfl
      have hall : Spent h s w s₂ w₂ := Spent.trans hspends rfl hstdout hspent
      have hpath : s₂.path = s.path := by
        obtain ⟨h₂, rfl, -⟩ := hspent.file
        rfl
      rw [hdiscard]
      cases r with
      | ok u =>
        refine ⟨_, _, _, rfl, hall, ?_⟩
        intro f hf
        cases hf
        rw [hpath]
        exact Or.inl ⟨g, .write (hfails g rfl)⟩
      | error e =>
        refine ⟨_, _, _, rfl, hall, ?_⟩
        intro f hf
        cases hf
        exact (hmeets e rfl).of_within hspends.plan (.refl o)
    · rename_i hunexpected
      refine ⟨_, _, _, rfl, ⟨⟨h₁, rfl, hspends⟩, rfl⟩, ?_⟩
      intro f hf
      cases hf
      exact Or.inr ⟨g, .write (hfails g rfl) (by simpa using hunexpected), rfl⟩
  | ok u =>
    have hsyncs := h₁.sync_spends
    have hsync_fails : ∀ f, h₁.sync.1 = .error f → some f ∈ h₁.plan.sync :=
      fun f hf => Handle.sync_fails hopen₁ hf
    dsimp only
    rcases hsync : h₁.sync with ⟨r, h₂⟩
    rw [hsync] at hsyncs hsync_fails
    have hspent : Spent h s w { s with file := some h₂ } { w with disk := d } :=
      ⟨⟨h₂, rfl, hspends.trans hsyncs⟩, rfl⟩
    cases r with
    | ok u => exact ⟨_, _, _, rfl, hspent, by simp⟩
    | error g =>
      refine ⟨_, _, _, rfl, hspent, ?_⟩
      intro f hf
      cases hf
      have hplanned : some g ∈ h.plan.sync := hspends.plan.sync.subset (hsync_fails g rfl)
      exact meets_toFailure (.sync hplanned) (.sync hplanned)

theorem echo_meets {record : Text} (size : Nat) (s : Sink) (w : World) (plan : Plan)
    (hascii : Text.Ascii record) :
    ∃ r s' w', s.echo record size w = (r, s', w') ∧ s'.file = s.file ∧ s'.path = s.path ∧
      s'.outlet.isSome = s.outlet.isSome ∧ (s'.outletOf w').Within (s.outletOf w) ∧
      (∀ n, r = .ok n → n = size) ∧
      ∀ f, r = .error f → Meets s.path plan (s.outletOf w) f := by
  have hwithin := (s.outletOf w).send_within record
  have hfails : ∀ g, ((s.outletOf w).send record).1 = .error g → (s.outletOf w).Fails g :=
    fun g hg => Outlet.send_fails hascii hg
  rcases hs : (s.outletOf w).send record with ⟨r, o⟩
  rw [hs] at hwithin hfails
  obtain ⟨s', w', hback, hout, -, hsome, hsame⟩ := outlet_back o s w
  have hsend : (s.outlet.getD w.stdout).send record = (r, o) := hs
  have hfile : s'.file = s.file := by rw [hsame]
  have hpath : s'.path = s.path := by rw [hsame]
  dsimp only at hwithin
  rw [← hout] at hwithin
  cases r with
  | ok u =>
    have hecho : s.echo record size w =
        (.ok size, { s' with bytesWritten := s'.bytesWritten + size }, w') := by
      simp only [echo, hsend, hback]
    refine ⟨_, _, w', hecho, hfile, hpath, hsome, hwithin, ?_, by simp⟩
    intro n hn
    exact (Except.ok.inj hn).symm
  | error g =>
    have hecho : s.echo record size w =
        (.error (g.toFailure Fault.isExpected .cannotEcho), s', w') := by
      simp only [echo, hsend, hback]
    refine ⟨_, s', w', hecho, hfile, hpath, hsome, hwithin, by simp, ?_⟩
    intro f hf
    cases hf
    exact meets_toFailure (.echo (hfails g rfl)) (.echo (hfails g rfl))

/-- A sink of ASCII lines fails only as the faults of its calls say. -/
theorem emit_meets {line : Text} {h : Handle} {s : Sink} {w : World} (hfile : s.file = some h)
    (hopen : h.closed = false) (hascii : Text.Ascii (recordOf line)) :
    ∃ r s' w' h', s.emit line w = (r, s', w') ∧ s'.file = some h' ∧ h.Spends h' ∧
      s'.path = s.path ∧ s'.outlet.isSome = s.outlet.isSome ∧
      (s'.outletOf w').Within (s.outletOf w) ∧ (∀ n, r = .ok n → n = (bytesOf line).length) ∧
      ∀ f, r = .error f → Meets s.path h.plan (s.outletOf w) f := by
  have henc : Utf8.encode (recordOf line) = .ok (bytesOf line) := by
    have hbytes := Utf8.encode_ascii hascii
    rw [encode_record line _ hbytes] at hbytes
    exact hbytes
  have hspends := h.tell_spends
  have hfails : ∀ f, h.tell.1 = .error f → some f ∈ h.plan.tell :=
    fun f hf => Handle.tell_fails hopen hf
  rcases htell : h.tell with ⟨r₀, h₀⟩
  rw [htell] at hspends hfails
  dsimp only at hspends hfails
  cases r₀ with
  | error g =>
    have hemit : s.emit line w = (.error (g.toFailure Fault.isExpected (.cannotWrite s.path)),
        { s with file := some h₀ }, w) := by
      simp only [emit, hfile, ← recordOf.eq_1, henc, htell]
    refine ⟨_, _, w, h₀, hemit, rfl, hspends, rfl, rfl, .refl _, by simp, ?_⟩
    intro f hf
    cases hf
    exact meets_toFailure (.tell (hfails g rfl)) (.tell (hfails g rfl))
  | ok offset =>
    obtain ⟨r₁, s₁, w₁, hpersist, hspent, hmeets⟩ := persist_meets (bytesOf line) offset
      { s with file := some h₀ } w (s.outletOf w) (hspends.closed_eq.trans hopen)
    obtain ⟨⟨h₁, rfl, hspends₁⟩, hstdout⟩ := hspent
    have hall := hspends.trans hspends₁
    have hsame : outletOf { s with file := some h₁ } w₁ = s.outletOf w := by
      simp [outletOf, hstdout]
    cases r₁ with
    | error e =>
      have hemit : s.emit line w = (.error e, { s with file := some h₁ }, w₁) := by
        simp only [emit, hfile, ← recordOf.eq_1, henc, htell, hpersist]
      refine ⟨_, _, w₁, h₁, hemit, rfl, hall, rfl, rfl, ?_, by simp, ?_⟩
      · rw [hsame]
        exact .refl _
      · intro f hf
        cases hf
        exact (hmeets e rfl).of_within hspends.plan (.refl _)
    | ok u =>
      obtain ⟨r₂, s₂, w₂, hecho, hfile₂, hpath, hsome, hwithin, hsize, hmeets₂⟩ :=
        echo_meets (bytesOf line).length { s with file := some h₁ } w₁ h.plan hascii
      rw [hsame] at hwithin hmeets₂
      have hemit : s.emit line w = (r₂, s₂, w₂) := by
        simp only [emit, hfile, ← recordOf.eq_1, henc, htell, hpersist, hecho]
      exact ⟨r₂, s₂, w₂, h₁, hemit, hfile₂, hall, hpath, hsome, hwithin, hsize, hmeets₂⟩

theorem leave_meets (inFlight : Bool) (s : Sink) (w : World) (plan : Plan) (o : Outlet)
    (hplan : ∀ h, s.file = some h → h.plan.Within plan) :
    ∃ r w', s.leave inFlight w = (r, { s with file := none }, w') ∧
      ∀ f, r = .error f → Meets s.path plan o f := by
  obtain ⟨path, append, outlet, file, bytesWritten⟩ := s
  unfold leave release
  cases file with
  | none => exact ⟨.ok (), w, rfl, by simp⟩
  | some h =>
    dsimp only
    cases hclose : h.close with
    | ok u => exact ⟨.ok (), w, rfl, by simp⟩
    | error g =>
      have hplanned := (hplan h rfl).close.subset (Handle.close_fails hclose)
      dsimp only
      split
      · exact ⟨.ok (), _, rfl, by simp⟩
      · refine ⟨_, w, rfl, ?_⟩
        intro f hf
        cases hf
        exact meets_toFailure (.close hplanned) (.close hplanned)

end Sink

end HostTelemetry
