import HostTelemetry.Disk.Handle

/-!
# The file under a handle

What a handle does to its file is seen on a tape: the bytes of the file and the position of the
handle. Writes in pieces come to one write of all that was taken, and every other file is left
alone. How far a write gets depends on the plan only.
-/

set_option autoImplicit false

namespace HostTelemetry

structure Tape where
  bytes : Bytes
  position : Nat
  deriving DecidableEq, Repr

namespace Tape

def put (append : Bool) (data : Bytes) (t : Tape) : Tape :=
  if data.isEmpty then t
  else
    let place := if append then t.bytes.length else t.position
    ⟨overwrite t.bytes place data, place + data.length⟩

def cut (n : Nat) (t : Tape) : Tape := { t with bytes := resized t.bytes n }

end Tape

theorem overwrite_length (bs : Bytes) (p : Nat) (data : Bytes) :
    (overwrite bs p data).length = max bs.length (p + data.length) := by
  simp only [overwrite, List.length_append, List.length_take, List.length_replicate,
    List.length_drop]
  omega

theorem overwrite_end (bs data : Bytes) : overwrite bs bs.length data = bs ++ data := by
  simp [overwrite]

theorem overwrite_append (bs : Bytes) (p : Nat) (x y : Bytes) :
    overwrite (overwrite bs p x) (p + x.length) y = overwrite bs p (x ++ y) := by
  have hfront : (bs.take p ++ List.replicate (p - bs.length) 0 ++ x).length = p + x.length := by
    simp only [List.length_append, List.length_take, List.length_replicate]
    omega
  have hgap : p + x.length - (overwrite bs p x).length = 0 := by
    rw [overwrite_length]
    omega
  have htake : (overwrite bs p x).take (p + x.length) =
      bs.take p ++ List.replicate (p - bs.length) 0 ++ x := by
    rw [overwrite, List.take_append_of_le_length (by omega), List.take_of_length_le (by omega)]
  have hdrop : (overwrite bs p x).drop (p + x.length + y.length) =
      bs.drop (p + (x ++ y).length) := by
    rw [overwrite, List.drop_append, List.drop_eq_nil_of_le (by omega), hfront, List.drop_drop,
      List.length_append]
    simp only [List.nil_append]
    congr 1
    omega
  rw [overwrite, hgap, htake, hdrop]
  simp [overwrite]

theorem resized_length (bs : Bytes) (n : Nat) : (resized bs n).length = n := by
  simp only [resized, List.length_append, List.length_take, List.length_replicate]
  omega

theorem resized_shorter (bs data : Bytes) : resized (bs ++ data) bs.length = bs := by
  simp [resized]

namespace Tape

@[simp]
theorem put_nil (append : Bool) (t : Tape) : t.put append [] = t := rfl

theorem put_put (append : Bool) (x y : Bytes) (t : Tape) :
    (t.put append x).put append y = t.put append (x ++ y) := by
  cases x with
  | nil => rfl
  | cons b x =>
    cases y with
    | nil => simp
    | cons c y =>
      cases append with
      | true =>
        have h := overwrite_end (t.bytes ++ b :: x) (c :: y)
        simp only [List.length_append, List.length_cons] at h
        simp [put, overwrite_end, h]
        omega
      | false =>
        have h := overwrite_append t.bytes t.position (b :: x) (c :: y)
        simp only [put, List.isEmpty_cons, List.cons_append]
        simp only [List.length_cons, List.cons_append] at h
        simp [h]
        omega

theorem put_at_end (append : Bool) (data bs : Bytes) :
    put append data ⟨bs, bs.length⟩ = ⟨bs ++ data, (bs ++ data).length⟩ := by
  cases data with
  | nil => simp
  | cons b data => cases append <;> simp [put, overwrite_end]

theorem put_cut_at_end (append : Bool) (data bs : Bytes) :
    (put append data ⟨bs, bs.length⟩).cut bs.length = ⟨bs, (bs ++ data).length⟩ := by
  rw [put_at_end, cut, resized_shorter]

theorem lt_put_position (append : Bool) (data : Bytes) {t : Tape} {n : Nat}
    (hbytes : n ≤ t.bytes.length) (hpos : n < t.position) : n < (t.put append data).position := by
  cases data with
  | nil => exact hpos
  | cons b data =>
    simp only [put, List.isEmpty_cons, Bool.false_eq_true, if_false, List.length_cons]
    split <;> omega

theorem put_to_end (data : Bytes) (t : Tape) (h : data ≠ []) :
    t.put true data = ⟨t.bytes ++ data, (t.bytes ++ data).length⟩ := by
  simp [put, h, overwrite_end]

theorem put_past (append : Bool) {data : Bytes} {t : Tape} {n : Nat} (hdata : data ≠ [])
    (hbytes : n < t.bytes.length) (hpos : n < t.position) :
    n + data.length < (t.put append data).bytes.length ∧
      n + data.length < (t.put append data).position := by
  have hne : data.isEmpty = false := by simpa using hdata
  simp only [put, hne, Bool.false_eq_true, if_false, overwrite_length]
  split <;> omega

/-- A write begins at the end, or past it and then ends too far. -/
theorem put_places (append : Bool) {data base : Bytes} {position : Nat} (hdata : data ≠ [])
    (hpos : base.length ≤ position) :
    ((append = true ∨ position = base.length) ∧
        put append data ⟨base, position⟩ = ⟨base ++ data, (base ++ data).length⟩) ∨
      append = false ∧ base.length < position ∧
        (base ++ data).length < (put append data ⟨base, position⟩).bytes.length ∧
        (base ++ data).length < (put append data ⟨base, position⟩).position := by
  by_cases hstale : base.length < position
  · cases append with
    | true => exact Or.inl ⟨Or.inl rfl, put_to_end data _ hdata⟩
    | false =>
      refine Or.inr ⟨rfl, hstale, ?_, ?_⟩ <;>
        simp [put, hdata, overwrite_length] <;> omega
  · obtain rfl : position = base.length := by omega
    exact Or.inl ⟨Or.inr rfl, put_at_end append data base⟩

end Tape

namespace Disk

theorem setContent_self (d : Disk) (id : Nat) : d.setContent id (d.content id) = d := by
  cases d with
  | mk nodes content fresh =>
    simp only [setContent, Disk.mk.injEq, true_and, and_true]
    funext i
    split
    · subst i; rfl
    · rfl

@[simp]
theorem setContent_setContent (d : Disk) (id : Nat) (x y : Bytes) :
    (d.setContent id x).setContent id y = d.setContent id y := by
  simp only [setContent, Disk.mk.injEq, true_and, and_true]
  funext i
  split <;> rfl

@[simp]
theorem setContent_content (d : Disk) (id : Nat) (x : Bytes) :
    (d.setContent id x).content id = x := by
  simp [setContent]

theorem setContent_other (d : Disk) (id i : Nat) (x : Bytes) (h : i ≠ id) :
    (d.setContent id x).content i = d.content i := by
  simp [setContent, h]

end Disk

namespace Handle

def tape (h : Handle) (d : Disk) : Tape := ⟨d.content h.id, h.position⟩

def settle (t : Tape) (h : Handle) (d : Disk) : Handle × Disk :=
  ({ h with position := t.position }, d.setContent h.id t.bytes)

theorem settle_self (h : Handle) (d : Disk) : h.settle (h.tape d) d = (h, d) := by
  simp [settle, tape, Disk.setContent_self]

theorem tape_settle (t : Tape) (h : Handle) (d : Disk) :
    (h.settle t d).1.tape (h.settle t d).2 = t := by
  simp [settle, tape]

theorem settle_settle (t u : Tape) (h : Handle) (d : Disk) :
    (h.settle t d).1.settle u (h.settle t d).2 = h.settle u d := by
  simp [settle]

theorem put_settle (h : Handle) (data : Bytes) (d : Disk) :
    h.put data d = h.settle ((h.tape d).put h.append data) d := by
  cases data with
  | nil =>
    rw [Tape.put_nil, settle_self]
    rfl
  | cons b data => rfl

theorem take_drop_take (data : Bytes) (k m : Nat) (hm : m ≤ data.length - k) :
    data.take k ++ (data.drop k).take m = data.take (min k data.length + m) := by
  by_cases hk : k ≤ data.length
  · rw [Nat.min_eq_left hk, List.take_add]
  · have hzero : m = 0 := by omega
    rw [Nat.min_eq_right (by omega), hzero, List.take_zero, List.append_nil, Nat.add_zero,
      List.take_of_length_le (by omega), List.take_length]

def reach : List PlannedWrite → (n : Nat) → Nat
  | _, 0 => 0
  | [], n => n
  | .fails _ :: _, _ => 0
  | .usual :: _, n => n
  | .atMost k :: plan, n => min k n + reach plan (n - k)

theorem reach_le (plan : List PlannedWrite) (n : Nat) : reach plan n ≤ n := by
  induction plan generalizing n with
  | nil => cases n <;> simp [reach]
  | cons a plan ih =>
    cases n with
    | zero => simp [reach]
    | succ n =>
      cases a with
      | usual => simp [reach]
      | fails f => simp [reach]
      | atMost k =>
        have h := ih (n + 1 - k)
        simp only [reach]
        omega

/-- A write of many steps takes what the plan lets through, and fails only where the plan does. -/
theorem writeSteps_settle (plan : List PlannedWrite) (data : Bytes) (h : Handle) (d : Disk)
    (hopen : h.closed = false) :
    ∃ r rest, writeSteps plan data h d =
        (r, rest, h.settle ((h.tape d).put h.append (data.take (reach plan data.length))) d) ∧
      rest <:+ plan ∧
      match r with
      | .ok _ => reach plan data.length = data.length
      | .error f => reach plan data.length < data.length ∧ .fails f ∈ plan := by
  induction plan generalizing data h d with
  | nil =>
    cases data with
    | nil => exact ⟨.ok (), [], by simp [writeSteps, reach, settle_self]⟩
    | cons b data =>
      exact ⟨.ok (), [], by simp [writeSteps, hopen, reach, put_settle]⟩
  | cons a plan ih =>
    cases data with
    | nil => exact ⟨.ok (), a :: plan, by simp [writeSteps, reach, settle_self]⟩
    | cons b data =>
      cases a with
      | usual =>
        refine ⟨.ok (), plan, ?_, List.suffix_cons _ _, by simp [reach]⟩
        simp [writeSteps, hopen, reach, put_settle]
      | fails f =>
        refine ⟨.error f, plan, ?_, List.suffix_cons _ _, by simp [reach]⟩
        simp [writeSteps, reach, settle_self]
      | atMost k =>
        obtain ⟨r, rest, hsteps, hsuffix, hr⟩ :=
          ih ((b :: data).drop k) (h.put ((b :: data).take k) d).1 (h.put ((b :: data).take k) d).2
            (by rw [put_settle]; exact hopen)
        have hreach : reach (.atMost k :: plan) (b :: data).length =
            min k (b :: data).length + reach plan ((b :: data).length - k) := rfl
        have hle := reach_le plan ((b :: data).length - k)
        refine ⟨r, rest, ?_, hsuffix.trans (List.suffix_cons _ _), ?_⟩
        · have hstep : writeSteps (.atMost k :: plan) (b :: data) h d =
              writeSteps plan ((b :: data).drop k) (h.put ((b :: data).take k) d).1
                (h.put ((b :: data).take k) d).2 := by
            simp [writeSteps, hopen]
          rw [hstep, hsteps, put_settle, tape_settle, settle_settle]
          simp only [settle, List.length_drop]
          rw [Tape.put_put, hreach, take_drop_take _ _ _ hle]
        · rw [List.length_drop] at hr
          rw [hreach]
          cases r with
          | ok u => simp only at hr ⊢; omega
          | error f => exact ⟨by have := hr.1; omega, List.mem_cons_of_mem _ hr.2⟩

end Handle

end HostTelemetry
