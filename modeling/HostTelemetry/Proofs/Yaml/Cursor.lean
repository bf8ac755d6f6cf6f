import HostTelemetry.Yaml.Block
import HostTelemetry.Yaml.Plain
import Mathlib.Data.List.Infix

/-!
# Going on in a document

Whatever is read, skipped or folded, what is left of the text is an end of what was left before, and
the fault behind it is the same.
-/

set_option autoImplicit false

namespace HostTelemetry.Yaml

namespace Cursor

theorem next_rest (c : Cursor) : c.next.rest = c.rest.drop 1 := by
  unfold next
  split
  · rename_i h
    rw [h]
    rfl
  · rename_i h
    rw [h]
    split <;> rfl

/-- A place further on in the same stream. -/
structure Follows (c d : Cursor) : Prop where
  rest : c.rest <:+ d.rest
  fault : c.fault = d.fault

theorem Follows.refl (c : Cursor) : c.Follows c := ⟨List.suffix_rfl, rfl⟩

theorem Follows.trans {c d e : Cursor} (h : c.Follows d) (h' : d.Follows e) : c.Follows e :=
  ⟨h.rest.trans h'.rest, h.fault.trans h'.fault⟩

theorem next_follows (c : Cursor) : c.next.Follows c := by
  constructor
  · rw [next_rest]
    exact List.drop_suffix 1 c.rest
  · unfold next
    split
    · rfl
    · split <;> rfl

theorem advance_follows (n : Nat) (c : Cursor) : (c.advance n).Follows c := by
  induction n generalizing c with
  | zero => exact .refl c
  | succ n ih => exact (ih c.next).trans c.next_follows

theorem run_follows (p : CodePoint → Bool) (c : Cursor) : (c.run p).2.Follows c :=
  c.advance_follows _

theorem skip_follows (p : CodePoint → Bool) (c : Cursor) : (c.skip p).Follows c :=
  c.run_follows p

theorem lineBreak_follows (c : Cursor) : c.lineBreak.2.Follows c := by
  unfold lineBreak
  dsimp only
  split
  · exact c.advance_follows 2
  · split
    · exact c.next_follows
    · split
      · exact c.next_follows
      · exact .refl c

theorem rest_of_peek {c : Cursor} {x : Nat} (h : c.peek 0 = x) (hx : x ≠ 0) :
    c.rest = x :: c.next.rest := by
  rw [next_rest]
  rw [peek, List.drop_zero] at h
  rcases hrest : c.rest with _ | ⟨y, t⟩
  · rw [hrest] at h
    exact absurd h.symm hx
  · rw [hrest] at h
    rw [← h]
    rfl

end Cursor

open Cursor

theorem readIndentation_follows (n widest : Nat) (c : Cursor) :
    (readIndentation n widest c).2.2.Follows c := by
  induction n generalizing widest c with
  | zero => exact .refl _
  | succ n ih =>
    rw [readIndentation]
    split
    · exact (ih _ _).trans c.next_follows
    · split
      · exact (ih _ _).trans c.lineBreak_follows
      · exact .refl _

theorem indentTo_follows (column n : Nat) (c : Cursor) : (indentTo column n c).Follows c := by
  induction n generalizing c with
  | zero => exact .refl _
  | succ n ih =>
    rw [indentTo]
    split
    · exact (ih _).trans c.next_follows
    · exact .refl _

theorem readEmptyLines_follows (column n : Nat) (c : Cursor) :
    (readEmptyLines column n c).2.Follows c := by
  induction n generalizing c with
  | zero => exact .refl _
  | succ n ih =>
    have hindent := indentTo_follows column column c
    rw [readEmptyLines]
    dsimp only
    split
    · exact ((ih _).trans (lineBreak_follows _)).trans hindent
    · exact hindent

theorem readLines_follows (fold : Bool) (column n : Nat) (c : Cursor) :
    (readLines fold column n c).2.2.2.Follows c := by
  induction n generalizing c with
  | zero => exact .refl _
  | succ n ih =>
    have hbreak := (lineBreak_follows _).trans (c.run_follows fun x => !isBreakOrEnd x)
    have hempty := (readEmptyLines_follows column
      ((c.run fun x => !isBreakOrEnd x).2.lineBreak.2.rest.length + 1) _).trans hbreak
    rw [readLines]
    dsimp only
    split
    · exact (ih _).trans hempty
    · exact hempty

theorem readPlainBreaks_follows (n : Nat) (c : Cursor) :
    (readPlainBreaks n c).2.Follows c := by
  induction n generalizing c with
  | zero => exact .refl _
  | succ n ih =>
    have hskip := c.skip_follows (· = 32)
    have hbreak := (lineBreak_follows _).trans hskip
    rw [readPlainBreaks]
    dsimp only
    split
    · split
      · exact hbreak
      · exact (ih _).trans hbreak
    · exact hskip

theorem readPlainSpaces_follows (c : Cursor) : (readPlainSpaces c).2.2.Follows c := by
  have hrun := c.run_follows (· = 32)
  have hbreak := (lineBreak_follows _).trans hrun
  rw [readPlainSpaces]
  dsimp only
  split
  · split
    · exact hbreak
    · exact (readPlainBreaks_follows _ _).trans hbreak
  · exact hrun

theorem readPlainFrom_follows (flow : Bool) (indent : Int) (n : Nat) (before : Text) (ended : Bool)
    (c : Cursor) : (readPlainFrom flow indent n before ended c).2.2.Follows c := by
  induction n generalizing before ended c with
  | zero => exact .refl _
  | succ n ih =>
    rw [readPlainFrom]
    dsimp only
    generalize (if c.peek 0 = cp '#' then 0 else plainLength flow c.rest) = k
    have hspaces := (readPlainSpaces_follows (c.advance k)).trans (c.advance_follows k)
    split
    · exact .refl _
    · split
      · exact hspaces
      · split
        · exact hspaces
        · exact (ih _ _ _).trans hspaces

theorem readPlain_follows (flow : Bool) (indent : Int) (c : Cursor) :
    (readPlain flow indent c).2.2.Follows c :=
  readPlainFrom_follows flow indent _ [] false c

end HostTelemetry.Yaml
