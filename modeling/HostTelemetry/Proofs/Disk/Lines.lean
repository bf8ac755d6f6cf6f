import HostTelemetry.Proofs.Disk.Gain

/-!
# The lines in a file

A line is ended by the byte 10. What is written over others can end no more lines than it has ends
itself, a gap or a cut ends none, and neither does a file that is opened or made. An export appends
to one file and leaves all others alone.
-/

set_option autoImplicit false

namespace HostTelemetry

def lineEnds (bs : Bytes) : Nat := bs.count 10

theorem lineEnds_append (xs ys : Bytes) : lineEnds (xs ++ ys) = lineEnds xs + lineEnds ys :=
  List.count_append

theorem lineEnds_zeros (n : Nat) : lineEnds (List.replicate n 0) = 0 :=
  List.count_eq_zero_of_not_mem fun h => absurd (List.eq_of_mem_replicate h) (by decide)

theorem lineEnds_take_drop (bs : Bytes) (n : Nat) :
    lineEnds (bs.take n) + lineEnds (bs.drop n) = lineEnds bs := by
  rw [← lineEnds_append, List.take_append_drop]

/-- Zeros in a gap end no line, and what is written over is lost. -/
theorem lineEnds_overwrite (bs : Bytes) (p : Nat) (data : Bytes) :
    lineEnds (overwrite bs p data) ≤ lineEnds bs + lineEnds data := by
  have hback := lineEnds_take_drop (bs.drop p) data.length
  have hall := lineEnds_take_drop bs p
  rw [List.drop_drop] at hback
  rw [overwrite, lineEnds_append, lineEnds_append, lineEnds_append, lineEnds_zeros]
  omega

theorem lineEnds_resized (bs : Bytes) (n : Nat) : lineEnds (resized bs n) ≤ lineEnds bs := by
  have hall := lineEnds_take_drop bs n
  rw [resized, lineEnds_append, lineEnds_zeros]
  omega

theorem lineEnds_emptied (emptied : Prop) [Decidable emptied] (bs : Bytes) :
    lineEnds (if emptied then [] else bs) ≤ lineEnds bs := by
  split
  · exact Nat.zero_le _
  · exact Nat.le_refl _

theorem Tape.lineEnds_put (append : Bool) (data : Bytes) (t : Tape) :
    lineEnds (t.put append data).bytes ≤ lineEnds t.bytes + lineEnds data := by
  unfold Tape.put
  split
  · exact Nat.le_add_right _ _
  · exact lineEnds_overwrite _ _ data

namespace Disk

theorem held_lineEnds {d d' : Disk} {k : Nat} (nodes : d'.nodes = d.nodes)
    (files : ∀ id, lineEnds (d'.content id) ≤ lineEnds (d.content id) + k) (l : Location) :
    lineEnds (d'.held l) ≤ lineEnds (d.held l) + k := by
  have hnode : d'.node? l = d.node? l := by rw [node?, node?, nodes]
  rw [held, held, hnode]
  rcases d.node? l with _ | _ | id
  · exact Nat.zero_le _
  · exact Nat.zero_le _
  · exact files id

theorem extends_of_nodes {d d' : Disk} (nodes : d'.nodes = d.nodes) : d.Extends d' := by
  intro l n h
  rw [node?, nodes]
  exact h

theorem acquire_lineEnds {d d' : Disk} {p : Path} {keep : Bool} {id : Nat}
    (h : d.acquire p keep = .ok (id, d')) (l : Location) :
    lineEnds (d'.held l) ≤ lineEnds (d.held l) := by
  obtain ⟨m, -, ⟨-, rfl⟩ | ⟨-, rfl, rfl⟩⟩ := acquire_cases h
  · cases keep with
    | true => exact Nat.le_refl _
    | false =>
      have hnodes : (d.setContent id []).nodes = d.nodes := rfl
      exact held_lineEnds (k := 0) hnodes (fun i => lineEnds_emptied (i = id) (d.content i)) l
  · rw [held, held, create_node?]
    rcases d.node? l with _ | _ | i
    · by_cases hl : m = l
      · rw [Option.none_or, if_pos hl]
        exact Nat.le_of_eq (congrArg lineEnds (if_pos rfl))
      · exact Nat.le_of_eq (by rw [Option.none_or, if_neg hl])
    · exact Nat.le_refl _
    · -- The number of the new file may be in use here, as nothing is said of the disk.
      exact lineEnds_emptied (i = d.fresh) (d.content i)

end Disk

namespace MetricFile

theorem acquire_lineEnds (p : Path) (d : Disk) (l : Location) :
    lineEnds ((acquire p d).2.held l) ≤ lineEnds (d.held l) := by
  rcases h : acquire p d with ⟨f | file, d'⟩
  · exact Nat.le_of_eq (congrArg lineEnds ((acquire_error h).furnishes.held_eq l))
  · obtain ⟨-, e, id, hpaves, hopen⟩ := acquire_ok h
    have hlines := Disk.acquire_lineEnds hopen l
    rwa [hpaves.furnishes.held_eq] at hlines

/-- Bytes are appended to the file of a path, if there is one, or nothing is. -/
structure Appends (path : Option Path) (print : Bytes) (w w' : World) : Prop where
  stdout_eq : w'.stdout = w.stdout
  extends_ : w.disk.Extends w'.disk
  held : ∀ l, ∃ left more, w'.disk.held l = left ++ more ∧
    lineEnds left ≤ lineEnds (w.disk.held l) ∧
    (more = [] ∨ more = print ∧ ∃ m id, path = some m ∧ w'.disk.file? m = some id ∧
      w'.disk.node? l = some (.file id))

theorem Appends.same {path : Option Path} {print : Bytes} {w w' : World} (hd : w'.disk = w.disk)
    (ho : w'.stdout = w.stdout) : Appends path print w w' := by
  constructor
  case stdout_eq => exact ho
  case extends_ => rw [hd]; exact .refl w.disk
  case held =>
    intro l
    rw [hd]
    exact ⟨_, [], (List.append_nil _).symm, Nat.le_refl _, Or.inl rfl⟩

theorem Appends.after {path : Option Path} {print : Bytes} {w v w' : World}
    (a : Appends path print v w') (hd : v.disk = w.disk) (ho : v.stdout = w.stdout) :
    Appends path print w w' :=
  ⟨a.stdout_eq.trans ho, hd ▸ a.extends_, hd ▸ a.held⟩

theorem appends_acquired {p : Path} {id : Nat} {d : Disk} {w : World}
    (hopen : w.disk.acquire p true = .ok (id, d)) (print : Bytes) :
    Appends (some p) print w { w with disk := d.setContent id (d.content id ++ print) } := by
  obtain ⟨k, -, hk, hnode, hextends, -⟩ := Disk.acquire_frame hopen
  have hkept := d.setContent_extends id (d.content id ++ print)
  constructor
  case stdout_eq => rfl
  case extends_ => exact hextends.trans hkept
  case held =>
    intro l
    have hlines := Disk.acquire_lineEnds hopen l
    dsimp only
    by_cases hl : d.node? l = some (.file id)
    · rw [Disk.held_of_node hl] at hlines
      refine ⟨d.content id, print, ?_, hlines, Or.inr ⟨rfl, p, id, rfl, ?_, hkept l _ hl⟩⟩
      · rw [Disk.held_of_node (hkept l _ hl), Disk.setContent_content]
      · exact Disk.file?_extends hkept p id (Disk.file?_of_node hk hnode)
    · have hsame : (d.setContent id (d.content id ++ print)).held l = d.held l := by
        apply Disk.held_congr hkept
        intro i hi
        have hother : i ≠ id := by
          rintro rfl
          exact hl hi
        exact ⟨hi, d.setContent_other id i _ hother⟩
      exact ⟨_, [], hsame.trans (List.append_nil _).symm, hlines, Or.inl rfl⟩

theorem write_appends (time : Text) (reports : List Report) (m : MetricFile) (w : World) :
    Appends (some m.path) (asciiBytes (joined (Report.lines time reports)).2) w
      (m.write time reports w).2 := by
  unfold write
  rcases hopen : w.disk.acquire m.path true with f | ⟨id, d⟩
  · dsimp only
    split
    · exact .same rfl rfl
    · exact .same rfl rfl
  · exact appends_acquired hopen _

end MetricFile

end HostTelemetry
