import HostTelemetry.Proofs.Text.Utf8
import HostTelemetry.Text.Stream

/-!
# Streams of bytes that stand for a text

A stream has no fault exactly if its bytes spell a text, into whatever pieces they are cut. What can
be read in front of a fault is no longer than the bytes.
-/

set_option autoImplicit false

namespace HostTelemetry

namespace Utf8

theorem encodeOne_ne_nil (c : CodePoint) : encodeOne c ≠ [] := by
  unfold encodeOne
  repeat' split
  all_goals simp

theorem Spells.length_le {t : Text} {bs : Bytes} (h : Spells t bs) : t.length ≤ bs.length := by
  obtain ⟨-, rfl⟩ := h
  induction t with
  | nil => exact Nat.le_refl 0
  | cons c t ih =>
    have hpos := List.length_pos_iff.2 (encodeOne_ne_nil c)
    rw [List.flatMap_cons, List.length_append, List.length_cons]
    omega

theorem decodePieces_length (waiting : Bytes) (ps : List Bytes) :
    (decodePieces waiting ps).1.length ≤ waiting.length + ps.flatten.length := by
  induction ps generalizing waiting with
  | nil =>
    rw [decodePieces]
    rcases hdec : decode waiting with u | t
    · exact Nat.zero_le _
    · exact (decode_eq_ok_iff.1 hdec).length_le
  | cons p ps ih =>
    obtain ⟨front, rest, hbs, hfront, hrest⟩ :=
      decodeFrom_spells 0 (Nat.le_refl (waiting ++ p).length)
    have hread := hfront.length_le
    have hlength : front.length + rest.length = waiting.length + p.length := by
      rw [← List.length_append, ← List.length_append, hbs]
    rw [List.flatten_cons, List.length_append, ← Nat.add_assoc, ← hlength, decodePieces]
    rcases hdec : decodeFrom (waiting ++ p).length 0 (waiting ++ p) with ⟨s, _ | u⟩
    · rw [hdec] at hread
      have hmore := ih []
      dsimp only at hread ⊢
      rw [List.length_nil] at hmore
      rw [List.length_append]
      omega
    · rw [hdec] at hread hrest
      obtain ⟨-, hrest⟩ := hrest
      dsimp only at hread ⊢
      split
      · rename_i hr
        rw [if_pos hr] at hrest
        have hmore := ih u.bytes
        rw [hrest] at hmore ⊢
        rw [List.length_append]
        omega
      · exact Nat.zero_le _

end Utf8

namespace TextStream

open Utf8 (Spells decodePieces)

theorem unifiedLines_length (t : Text) : (unifiedLines t).length ≤ t.length := by
  induction t with
  | nil => exact Nat.le_refl 0
  | cons c t ih =>
    rw [unifiedLines]
    repeat' split
    all_goals simp only [List.length_cons]; omega

theorem ofPieces_fault (ps : List Bytes) : (ofPieces ps).fault = (decodePieces [] ps).2 := by
  rw [ofPieces]
  rcases decodePieces [] ps with ⟨t, _ | u⟩ <;> rfl

theorem ofPieces_whole {ps : List Bytes} {t : Text} (h : Spells t ps.flatten) :
    ofPieces ps = ⟨unifiedLines t, none⟩ := by
  rw [ofPieces, Utf8.decodePieces_eq_iff.2 h]

theorem exists_spelled {ps : List Bytes} (h : (ofPieces ps).fault = none) :
    ∃ t, Spells t ps.flatten := by
  rw [ofPieces_fault] at h
  exact ⟨_, Utf8.decodePieces_eq_iff.1 (Prod.ext rfl h)⟩

theorem ofPieces_length (ps : List Bytes) : (ofPieces ps).text.length ≤ ps.flatten.length := by
  have hlength := Utf8.decodePieces_length [] ps
  rw [List.length_nil, Nat.zero_add] at hlength
  rw [ofPieces]
  rcases hdec : decodePieces [] ps with ⟨t, _ | u⟩
  · rw [hdec] at hlength
    exact (unifiedLines_length t).trans hlength
  · rw [hdec] at hlength
    refine (unifiedLines_length _).trans (Nat.le_trans ?_ hlength)
    split
    · rw [List.length_dropLast]
      exact Nat.sub_le _ _
    · exact Nat.le_refl _

end TextStream

end HostTelemetry
