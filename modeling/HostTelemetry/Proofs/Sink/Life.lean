import HostTelemetry.Proofs.Sink.Failing

/-!
# The life of a sink

A sink is opened, given lines, closed, and left at the end of blocks, in any order. Between these
calls others may do what they like to its file, its stream and the world. Whether it is open, what
it has counted and which files it has let go of are read off the events.
-/

set_option autoImplicit false

namespace HostTelemetry

namespace Sink

def closeFault (s : Sink) : Option Fault :=
  match s.file with
  | none => none
  | some h =>
    match h.close with
    | .ok _ => none
    | .error g => some g

def leaveBlock (inFlight : Option Failure) (s : Sink) (w : World) :
    Option Failure × Sink × World :=
  match s.leave inFlight.isSome w with
  | (.ok _, s, w) => (inFlight, s, w)
  | (.error e, s, w) => (some e, s, w)

theorem release_eq (s : Sink) :
    s.release = ((match s.closeFault with
      | none => .ok ()
      | some g => .error (g.toFailure Fault.isExpected (.cannotClose s.path))),
      { s with file := none }) := by
  obtain ⟨path, append, outlet, file, bytesWritten⟩ := s
  cases file with
  | none => rfl
  | some h =>
    cases hclose : h.close with
    | ok u => simp [release, closeFault, hclose]
    | error g => simp [release, closeFault, hclose]

theorem leave_sink (inFlight : Bool) (s : Sink) (w : World) :
    (s.leave inFlight w).2.1 = { s with file := none } := by
  rw [leave, release_eq]
  cases s.closeFault with
  | none => rfl
  | some g =>
    dsimp only
    split <;> rfl

theorem leaveBlock_sink (inFlight : Option Failure) (s : Sink) (w : World) :
    (s.leaveBlock inFlight w).2.1 = { s with file := none } := by
  rw [← leave_sink inFlight.isSome s w, leaveBlock]
  rcases s.leave inFlight.isSome w with ⟨_ | _, s', w'⟩ <;> rfl

/-- A block on a file that closes, or fails to close as expected, lets out what was in flight, and
otherwise the failure to close. -/
theorem leaveBlock_out {s : Sink} (expected : ∀ g, s.closeFault = some g → g.isExpected)
    (inFlight : Option Failure) (w : World) :
    (s.leaveBlock inFlight w).1 =
      inFlight.or (s.closeFault.map (.cannotClose s.path)) := by
  rw [leaveBlock, leave, release_eq]
  cases hclose : s.closeFault with
  | none => cases inFlight <;> rfl
  | some g =>
    have hwrapped : g.toFailure Fault.isExpected (.cannotClose s.path) = .cannotClose s.path g :=
      if_pos (expected g hclose)
    dsimp only
    rw [hwrapped]
    cases inFlight <;> simp [Failure.kind]

theorem acquire_isOpen {s : Sink} (isOpen : s.isClosed = false) (w : World) :
    s.acquire w = (.ok (), s, w) := by
  cases hfile : s.file with
  | none => simp [isClosed, hfile] at isOpen
  | some h => simp [acquire, hfile]

theorem emit_isClosed {s : Sink} (closed : s.isClosed) (line : Text) (w : World) :
    s.emit line w = (.error (.notOpen s.path), s, w) := by
  have hfile : s.file = none := Option.isNone_iff_eq_none.1 closed
  simp [emit, hfile]

theorem release_isClosed {s : Sink} (closed : s.isClosed) : s.release = (.ok (), s) := by
  have hfile : s.file = none := Option.isNone_iff_eq_none.1 closed
  simp [release, hfile]

def answered : Except Failure Nat → Nat
  | .ok n => n
  | .error _ => 0

theorem persist_file (data : Bytes) (offset : Nat) (h : Handle) (s : Sink) (w : World) :
    ∃ r h' w', s.persist data offset h w = (r, { s with file := some h' }, w') := by
  unfold persist
  rcases h.writeAll data w.disk with ⟨_ | _, h₁, d⟩
  case error f =>
    dsimp only
    split
    · obtain ⟨h', w', hdiscard, -⟩ :=
        discard_leaves offset h₁ { s with file := some h₁ } { w with disk := d }
      rcases hr : discard offset h₁ { s with file := some h₁ } { w with disk := d }
        with ⟨_ | _, s', v⟩
      all_goals
        rw [hr] at hdiscard
        cases hdiscard
        exact ⟨_, h', w', rfl⟩
    · exact ⟨_, h₁, _, rfl⟩
  case ok u =>
    dsimp only
    rcases h₁.sync with ⟨_ | _, h₂⟩
    · exact ⟨_, h₂, _, rfl⟩
    · exact ⟨_, h₂, _, rfl⟩

structure Answers (line : Text) (s : Sink) (r : Except Failure Nat) (s' : Sink) : Prop where
  held : s'.isClosed = s.isClosed
  counted : s'.bytesWritten = s.bytesWritten + answered r
  sized : ∀ n, r = .ok n → ∃ bs, Utf8.encode line = .ok bs ∧ n = bs.length + 1

theorem Answers.failed {line : Text} {s s' : Sink} (e : Failure) (held : s'.isClosed = s.isClosed)
    (counted : s'.bytesWritten = s.bytesWritten) : Answers line s (.error e) s' :=
  ⟨held, counted, nofun⟩

theorem recordOf_size {line : Text} {data : Bytes}
    (h : Utf8.encode (recordOf line) = .ok data) :
    ∃ bs, Utf8.encode line = .ok bs ∧ data.length = bs.length + 1 := by
  obtain ⟨hall, rfl⟩ := Utf8.encode_eq_ok_iff.1 h
  refine ⟨line.flatMap Utf8.encodeOne, ?_, ?_⟩
  · rw [Utf8.encode_eq_ok_iff]
    exact ⟨fun c hc => hall c (List.mem_append_left _ hc), rfl⟩
  · rw [recordOf, List.flatMap_append, List.length_append]
    rfl

theorem Answers.over {line : Text} {s s₀ s' : Sink} {r : Except Failure Nat}
    (a : Answers line s₀ r s') (held : s₀.isClosed = s.isClosed)
    (counted : s₀.bytesWritten = s.bytesWritten) : Answers line s r s' :=
  ⟨a.held.trans held, counted ▸ a.counted, a.sized⟩

theorem echo_answers {line : Text} {data : Bytes} (s : Sink) (w : World)
    (henc : Utf8.encode (recordOf line) = .ok data) :
    ∃ r s' w', s.echo (recordOf line) data.length w = (r, s', w') ∧ Answers line s r s' := by
  obtain ⟨r, s', w', hecho, hsame, -, hcounts⟩ := echo_counts (recordOf line) data.length s w
  obtain ⟨bs, hbs, hsize⟩ := recordOf_size henc
  have hanswer := hcounts.answer
  have hcounted := hcounts.counted
  refine ⟨r, s', w', hecho, ?_⟩
  constructor
  case held => rw [isClosed, hsame, isClosed]
  case counted =>
    cases r with
    | ok n =>
      rw [hanswer.1, if_pos rfl] at hcounted
      rw [hcounted, answered, hanswer.2]
    | error e =>
      rw [if_neg hanswer] at hcounted
      exact hcounted
  case sized =>
    rintro n rfl
    exact ⟨bs, hbs, hanswer.2.trans hsize⟩

theorem emit_answers (line : Text) (s : Sink) (w : World) :
    ∃ r s' w', s.emit line w = (r, s', w') ∧ Answers line s r s' := by
  cases hfile : s.file with
  | none => exact ⟨_, s, w, emit_isClosed (by simp [isClosed, hfile]) line w, .failed _ rfl rfl⟩
  | some h =>
    have held : ∀ h', (⟨s.path, s.append, s.outlet, some h', s.bytesWritten⟩ : Sink).isClosed =
        s.isClosed := by simp [isClosed, hfile]
    cases henc : Utf8.encode (recordOf line) with
    | error u =>
      have hemit : s.emit line w = (.error (.passed (.unwritable .utf8 u)), s, w) := by
        simp only [emit, hfile, ← recordOf.eq_1, henc]
      exact ⟨_, s, w, hemit, .failed _ rfl rfl⟩
    | ok data =>
      rcases htell : h.tell with ⟨_ | offset, h₀⟩
      case error f =>
        have hemit : s.emit line w = (.error (f.toFailure Fault.isExpected (.cannotWrite s.path)),
            { s with file := some h₀ }, w) := by
          simp only [emit, hfile, ← recordOf.eq_1, henc, htell]
        exact ⟨_, _, w, hemit, .failed _ (held h₀) rfl⟩
      case ok =>
        obtain ⟨_ | _, h₁, w₁, hpersist⟩ := persist_file data offset h₀ { s with file := some h₀ } w
        case error e =>
          have hemit : s.emit line w = (.error e, { s with file := some h₁ }, w₁) := by
            simp only [emit, hfile, ← recordOf.eq_1, henc, htell, hpersist]
          exact ⟨_, _, w₁, hemit, .failed e (held h₁) rfl⟩
        case ok u =>
          obtain ⟨r, s', w', hecho, answers⟩ := echo_answers { s with file := some h₁ } w₁ henc
          have hemit : s.emit line w = (r, s', w') := by
            simp only [emit, hfile, ← recordOf.eq_1, henc, htell, hpersist, hecho]
          exact ⟨r, s', w', hemit, answers.over (held h₁) rfl⟩

structure Behaves (s : Sink) (w : World) : Prop where
  again : s.isClosed = false → s.acquire w = (.ok (), s, w)
  refused : ∀ f s' w', s.acquire w = (.error f, s', w') → s.isClosed ∧ s' = s ∧ w' = w
  mute : s.isClosed → ∀ line, ∃ f, f.kind = .write ∧ s.emit line w = (.error f, s, w)
  released : s.release.2 = { s with file := none }
  idle : s.isClosed → s.release = (.ok (), s)
  left : ∀ inFlight, (s.leaveBlock inFlight w).2.1 = { s with file := none }
  /-- Unless it fails to close in an unexpected way, a failure in flight goes on. -/
  goesOn : (∀ g, s.closeFault = some g → g.isExpected) →
    ∀ f, (s.leaveBlock (some f) w).1 = some f
  /-- With none in flight, the failure to close is the only one. -/
  reports : (∀ g, s.closeFault = some g → g.isExpected) →
    ∀ f, (s.leaveBlock none w).1 = some f ↔
      f.kind = .flush ∧ ∃ g, s.closeFault = some g ∧ f = .cannotClose s.path g

theorem behaves (s : Sink) (w : World) : s.Behaves w where
  again isOpen := acquire_isOpen isOpen w
  refused f s' w' hf := by
    cases hfile : s.file with
    | none =>
      obtain ⟨rfl, rfl, -⟩ := acquire_fails hfile hf
      exact ⟨by simp [isClosed, hfile], rfl, rfl⟩
    | some h =>
      rw [acquire_isOpen (by simp [isClosed, hfile])] at hf
      cases hf
  mute closed line := ⟨.notOpen s.path, rfl, emit_isClosed closed line w⟩
  released := by rw [release_eq]
  idle := release_isClosed
  left inFlight := leaveBlock_sink inFlight s w
  goesOn expected f := leaveBlock_out expected (some f) w
  reports expected f := by
    rw [leaveBlock_out expected none w, Option.none_or, Option.map_eq_some_iff]
    constructor
    · rintro ⟨g, hg, rfl⟩
      exact ⟨rfl, g, hg, rfl⟩
    · rintro ⟨-, g, hg, rfl⟩
      exact ⟨g, hg, rfl⟩

inductive Call
  | acquire
  | emit (line : Text)
  | release
  | leave (inFlight : Option Failure)
  /-- Others change the open file, the stream and the world. -/
  | meanwhile (change : Handle → Handle) (outlet : Option Outlet) (w : World)

inductive Event
  | acquired (r : Except Failure Unit)
  | emitted (line : Text) (r : Except Failure Nat)
  | released (r : Except Failure Unit)
  | left (inFlight out : Option Failure)
  | meanwhile
  deriving DecidableEq

namespace Event

def closes : Event → Bool
  | .released _ | .left .. => true
  | _ => false

def gain : Event → Nat
  | .emitted _ r => answered r
  | _ => 0

end Event

def OpenAfter (es : List Event) : Prop :=
  ∃ before after, es = before ++ .acquired (.ok ()) :: after ∧ ∀ e ∈ after, e.closes = false

inductive Deed
  | takes
  | gives
  deriving DecidableEq

/-- Files are taken and given back by turns, so none is given back twice; the flag says whether
one is held at the end. -/
inductive Turns : Bool → List Deed → Prop
  | nil : Turns false []
  | takes {ds : List Deed} : Turns false ds → Turns true (ds ++ [.takes])
  | gives {ds : List Deed} : Turns true ds → Turns false (ds ++ [.gives])

/-- What a sink does with a file in an event: it takes the file that an opening gives it, and gives
back the one that it closes, also if closing fails. -/
def deed? (s : Sink) : Event → Option Deed
  | .acquired (.ok _) => if s.isClosed then some .takes else none
  | .released _ | .left .. => if s.isClosed then none else some .gives
  | _ => none

def Call.perform : Call → Sink → World → Event × Sink × World
  | .acquire, s, w =>
    let (r, s, w) := s.acquire w
    (.acquired r, s, w)
  | .emit line, s, w =>
    let (r, s, w) := s.emit line w
    (.emitted line r, s, w)
  | .release, s, w =>
    let (r, s) := s.release
    (.released r, s, w)
  | .leave inFlight, s, w =>
    let (out, s, w) := s.leaveBlock inFlight w
    (.left inFlight out, s, w)
  | .meanwhile change outlet v, s, _ =>
    (.meanwhile, { s with file := s.file.map change, outlet := outlet }, v)

inductive Effect (s : Sink) : Event → Sink → Prop
  | opened (h : Handle) (closed : s.isClosed) :
    Effect s (.acquired (.ok ())) { s with file := some h }
  | again (isOpen : s.isClosed = false) : Effect s (.acquired (.ok ())) s
  | refused (f : Failure) : Effect s (.acquired (.error f)) s
  | emitted {line : Text} {r : Except Failure Nat} {s' : Sink} (answers : Answers line s r s') :
    Effect s (.emitted line r) s'
  | closed {e : Event} (closes : e.closes) : Effect s e { s with file := none }
  | meanwhile (change : Handle → Handle) (outlet : Option Outlet) :
    Effect s .meanwhile { s with file := s.file.map change, outlet := outlet }

theorem perform_effect (c : Call) (s : Sink) (w : World) :
    Effect s (c.perform s w).1 (c.perform s w).2.1 := by
  cases c with
  | acquire =>
    rcases hacquire : s.acquire w with ⟨_ | _, s', w'⟩
    case error f =>
      obtain ⟨-, rfl, -⟩ := (s.behaves w).refused f s' w' hacquire
      simpa only [Call.perform, hacquire] using .refused f
    case ok u =>
      simp only [Call.perform, hacquire]
      cases hopen : s.isClosed with
      | false =>
        rw [acquire_isOpen hopen] at hacquire
        cases hacquire
        exact .again hopen
      | true =>
        obtain ⟨h, -, rfl, -⟩ := acquire_closed (Option.isNone_iff_eq_none.1 hopen) hacquire
        exact .opened h hopen
  | emit line =>
    obtain ⟨r, s', w', hemit, answers⟩ := s.emit_answers line w
    simpa only [Call.perform, hemit] using .emitted answers
  | release =>
    simp only [Call.perform, (s.behaves w).released]
    exact .closed rfl
  | leave inFlight =>
    simp only [Call.perform, leaveBlock_sink]
    exact .closed rfl
  | meanwhile change outlet v => exact .meanwhile change outlet

structure Life where
  events : List Event
  deeds : List Deed
  sink : Sink
  world : World

def Life.call (l : Life) (c : Call) : Life :=
  let done := c.perform l.sink l.world
  ⟨l.events ++ [done.1], l.deeds ++ (l.sink.deed? done.1).toList, done.2.1, done.2.2⟩

def live (s : Sink) (w : World) (calls : List Call) : Life :=
  calls.foldl Life.call ⟨[], [], s, w⟩

/-- The account that a sink keeps of its life. -/
structure Life.Sound (l : Life) : Prop where
  opened : l.sink.isClosed = false ↔ OpenAfter l.events
  counted : l.sink.bytesWritten = (l.events.map Event.gain).sum
  sized : ∀ line n, .emitted line (.ok n) ∈ l.events →
    ∃ bs, Utf8.encode line = .ok bs ∧ n = bs.length + 1
  turns : Turns (!l.sink.isClosed) l.deeds

theorem not_openAfter_nil : ¬OpenAfter [] := by
  rintro ⟨before, after, h, -⟩
  simp at h

theorem openAfter_concat (es : List Event) (e : Event) :
    OpenAfter (es ++ [e]) ↔ e = .acquired (.ok ()) ∨ OpenAfter es ∧ e.closes = false := by
  constructor
  · rintro ⟨before, after, heq, hafter⟩
    rcases List.eq_nil_or_concat after with rfl | ⟨after, last, rfl⟩
    · obtain ⟨-, hlast⟩ := List.append_inj' heq rfl
      exact Or.inl (List.singleton_inj.1 hlast)
    · rw [List.concat_eq_append] at hafter
      rw [List.concat_eq_append, ← List.cons_append, ← List.append_assoc] at heq
      obtain ⟨hes, hlast⟩ := List.append_inj' heq rfl
      obtain rfl := List.singleton_inj.1 hlast
      have hquiet := List.forall_mem_append.1 hafter
      exact Or.inr ⟨⟨before, after, hes, hquiet.1⟩, hquiet.2 e (List.mem_singleton_self e)⟩
  · rintro (rfl | ⟨⟨before, after, rfl, hafter⟩, he⟩)
    · exact ⟨es, [], rfl, fun x hx => absurd hx List.not_mem_nil⟩
    · refine ⟨before, after ++ [e], by rw [List.append_assoc, List.cons_append], ?_⟩
      exact List.forall_mem_append.2 ⟨hafter, List.forall_mem_singleton.2 he⟩

section

variable {s s' : Sink} {e : Event}

theorem Effect.open_iff (a : Effect s e s') :
    s'.isClosed = false ↔ e = .acquired (.ok ()) ∨ s.isClosed = false ∧ e.closes = false := by
  cases a with
  | opened h closed => simp [isClosed]
  | again isOpen => simp [isOpen]
  | refused f => simp [Event.closes]
  | emitted answers => simp [answers.held, Event.closes]
  | closed closes =>
    have hother : e ≠ .acquired (.ok ()) := by
      rintro rfl
      cases closes
    simp [isClosed, closes, hother]
  | meanwhile change outlet => simp [isClosed, Event.closes]

theorem Effect.counted (a : Effect s e s') : s'.bytesWritten = s.bytesWritten + e.gain := by
  cases a with
  | emitted answers => exact answers.counted
  | closed closes =>
    cases e with
    | emitted line r => cases closes
    | _ => rfl
  | _ => rfl

theorem Effect.sized (a : Effect s e s') {line : Text} {n : Nat} (he : .emitted line (.ok n) = e) :
    ∃ bs, Utf8.encode line = .ok bs ∧ n = bs.length + 1 := by
  subst he
  cases a with
  | emitted answers => exact answers.sized n rfl
  | closed closes => cases closes

theorem Effect.turns (a : Effect s e s') {ds : List Deed} (h : Turns (!s.isClosed) ds) :
    Turns (!s'.isClosed) (ds ++ (s.deed? e).toList) := by
  cases a with
  | opened handle closed =>
    rw [closed] at h
    simp only [deed?, closed]
    exact h.takes
  | again isOpen => simpa [deed?, isOpen] using h
  | refused f => simpa [deed?] using h
  | emitted answers => simpa [deed?, answers.held] using h
  | closed closes =>
    have hdeed : s.deed? e = if s.isClosed then none else some .gives := by
      cases e with
      | released r => rfl
      | left inFlight out => rfl
      | _ => cases closes
    rw [hdeed]
    show Turns false _
    cases hopen : s.isClosed with
    | true =>
      rw [hopen] at h
      simpa using h
    | false =>
      rw [hopen] at h
      exact h.gives
  | meanwhile change outlet => simpa [deed?, isClosed] using h

end

theorem Life.Sound.call {l : Life} (h : l.Sound) (c : Call) : (l.call c).Sound := by
  have heffect := perform_effect c l.sink l.world
  constructor
  case opened =>
    show (c.perform l.sink l.world).2.1.isClosed = false ↔ OpenAfter (l.events ++ [_])
    rw [heffect.open_iff, openAfter_concat, h.opened]
  case counted =>
    show (c.perform l.sink l.world).2.1.bytesWritten = ((l.events ++ [_]).map Event.gain).sum
    rw [heffect.counted, h.counted, List.map_append, List.sum_append]
    simp
  case sized =>
    intro line n hmem
    rcases List.mem_append.1 hmem with hmem | hmem
    · exact h.sized line n hmem
    · exact heffect.sized (List.mem_singleton.1 hmem)
  case turns => exact heffect.turns h.turns

theorem live_concat (s : Sink) (w : World) (calls : List Call) (c : Call) :
    live s w (calls ++ [c]) = (live s w calls).call c := by
  rw [live, List.foldl_append]
  rfl

/-- Whatever calls a sink gets and however they fail, its account is right, and it behaves. -/
theorem live_sound (path : Path) (append : Bool) (outlet : Option Outlet) (w : World)
    (calls : List Call) :
    (live (make path append outlet) w calls).Sound ∧
      (live (make path append outlet) w calls).sink.Behaves
        (live (make path append outlet) w calls).world := by
  -- How it behaves is true of any sink; only the account depends on its past.
  refine ⟨?_, behaves _ _⟩
  induction calls using List.reverseRecOn with
  | nil => exact ⟨by simp [live, make, isClosed, not_openAfter_nil], rfl, nofun, .nil⟩
  | append_singleton calls c ih =>
    rw [live_concat]
    exact ih.call c

def spoil (h : Handle) : Handle :=
  { h with plan := { h.plan with close := [some (.system 5 none)] } }

theorem live_sound_reopened :
    let w : World := ⟨.empty, .ofKind .unicode, []⟩
    let l := live (make ⟨0, [lit "f"]⟩ true none) w
      [.emit (lit "a"), .acquire, .emit (lit "a"), .meanwhile spoil none w,
        .leave (some .notAware), .acquire, .emit (lit "bc")]
    l.Sound ∧ OpenAfter l.events ∧ l.sink.bytesWritten = 5 ∧ l.deeds = [.takes, .gives, .takes] ∧
      .left (some .notAware) (some .notAware) ∈ l.events := by
  intro w l
  have hsound : l.Sound := (live_sound ⟨0, [lit "f"]⟩ true none w _).1
  exact ⟨hsound, hsound.opened.1 (by decide +kernel), by decide +kernel, by decide +kernel,
    by decide +kernel⟩

end Sink

end HostTelemetry
