import HostTelemetry.Proofs.Sink.Fate
import HostTelemetry.Proofs.Text.Ascii

/-!
# Lines of a file

A file falls into pieces at its line ends. What is put behind it continues its last piece, so
records that follow stand on lines of their own exactly if that piece is empty, as it is in an
empty file and behind a line end.
-/

set_option autoImplicit false

namespace HostTelemetry.Sink

open Text (Within)

/-- What stands between line ends. Behind the last line end there is one more piece. -/
def pieces (bs : Bytes) : List Bytes := bs.splitOn 10

def Framed (bs : Bytes) : Prop := bs = [] ∨ bs.getLast? = some 10

instance (bs : Bytes) : Decidable (Framed bs) := inferInstanceAs (Decidable (_ ∨ _))

def lineBytes (line : Text) : Bytes := line.flatMap Utf8.encodeOne

theorem bytesOf_eq (line : Text) : bytesOf line = lineBytes line ++ [10] := by
  rw [bytesOf, recordOf, List.flatMap_append]
  rfl

theorem lineBytes_eq {line : Text} (h : Within 32 126 line) :
    lineBytes line = line.map Nat.toUInt8 :=
  Utf8.flatMap_encodeOne (h.ascii (by decide))

theorem not_mem_lineBytes {line : Text} (h : Within 32 126 line) : 10 ∉ lineBytes line := by
  rw [lineBytes_eq h]
  intro hmem
  obtain ⟨c, hc, hten⟩ := List.mem_map.1 hmem
  obtain ⟨hlow, hhigh⟩ := h c hc
  have hsame := Utf8.toNat_toUInt8 (Nat.lt_of_le_of_lt hhigh (by decide))
  rw [hten] at hsame
  rw [← hsame] at hlow
  exact absurd hlow (by decide)

theorem decode_lineBytes {line : Text} (h : Within 32 126 line) :
    Utf8.decode (lineBytes line) = .ok line := by
  rw [lineBytes_eq h, Utf8.decode_ascii (h.ascii (by decide))]

theorem framed_append {front back : Bytes} (h : back ≠ []) :
    Framed (front ++ back) ↔ back.getLast? = some 10 := by
  have hlast : (front ++ back).getLast? = back.getLast? := by
    rw [List.getLast?_append, List.getLast?_eq_some_getLast h, Option.some_or]
  rw [Framed, hlast]
  simp [h]

theorem framed_written {base : Bytes} (h : Framed base) (lines : List Text) :
    Framed (base ++ written lines) := by
  rcases List.eq_nil_or_concat lines with rfl | ⟨lines, line, rfl⟩
  · rwa [written, List.flatMap_nil, List.append_nil]
  · rw [List.concat_eq_append, written_append, bytesOf_eq, ← List.append_assoc, ← List.append_assoc]
    exact Or.inr (List.getLast?_concat ..)

/-- A file ends with whole lines and something behind them that holds no line end. -/
theorem exists_ends (bs : Bytes) :
    ∃ ends last, bs = ends ++ last ∧ Framed ends ∧ 10 ∉ last := by
  induction bs with
  | nil => exact ⟨[], [], rfl, Or.inl rfl, List.not_mem_nil⟩
  | cons b bs ih =>
    obtain ⟨ends, last, rfl, hframed, hlast⟩ := ih
    rcases hframed with rfl | hends
    · by_cases hb : b = 10
      · exact ⟨[b], last, rfl, Or.inr (by rw [hb]; rfl), hlast⟩
      · exact ⟨[], b :: last, rfl, Or.inl rfl, by simp [Ne.symm hb, hlast]⟩
    · refine ⟨b :: ends, last, rfl, Or.inr ?_, hlast⟩
      rw [List.getLast?_cons, hends]
      rfl

theorem pieces_ends {ends : Bytes} (h : Framed ends) :
    ∃ front, ∀ rest, pieces (ends ++ rest) = front ++ pieces rest := by
  rcases h with rfl | hlast
  · exact ⟨[], fun rest => rfl⟩
  · obtain ⟨bs, rfl⟩ := List.getLast?_eq_some_iff.1 hlast
    refine ⟨pieces bs, fun rest => ?_⟩
    rw [pieces, List.append_assoc, List.singleton_append, List.splitOn_append_cons_self]
    rfl

theorem pieces_continued {last : Bytes} (h : 10 ∉ last) (rest : Bytes) :
    pieces (last ++ rest) = (pieces rest).modifyHead (last ++ ·) := by
  induction last with
  | nil =>
    rw [List.nil_append]
    cases pieces rest <;> rfl
  | cons b last ih =>
    rw [List.mem_cons, not_or] at h
    obtain ⟨hb, hlast⟩ := h
    rw [List.cons_append, pieces, List.splitOn_cons_eq_if_modifyHead,
      if_neg (by simpa using Ne.symm hb), ← pieces, ih hlast, List.modifyHead_modifyHead]
    rfl

theorem pieces_append (bs : Bytes) :
    ∃ front last, pieces bs = front ++ [last] ∧ (Framed bs ↔ last = []) ∧
      ∀ rest, pieces (bs ++ rest) = front ++ (pieces rest).modifyHead (last ++ ·) := by
  obtain ⟨ends, last, rfl, hends, hlast⟩ := exists_ends bs
  obtain ⟨front, hfront⟩ := pieces_ends hends
  refine ⟨front, last, ?_, ?_, fun rest => ?_⟩
  · rw [hfront, pieces, List.splitOn_eq_singleton hlast]
  · constructor
    · intro hframed
      by_contra hne
      exact hlast (List.mem_of_getLast? ((framed_append hne).1 hframed))
    · rintro rfl
      rwa [List.append_nil]
  · rw [List.append_assoc, hfront, pieces_continued hlast]

theorem pieces_written {lines : List Text} (h : ∀ line ∈ lines, Within 32 126 line)
    (rest : Bytes) : pieces (written lines ++ rest) = lines.map lineBytes ++ pieces rest := by
  induction lines with
  | nil => rfl
  | cons line lines ih =>
    obtain ⟨hline, hlines⟩ := List.forall_mem_cons.1 h
    rw [written, List.flatMap_cons, bytesOf_eq, ← written, List.append_assoc, List.append_assoc,
      List.singleton_append, pieces,
      List.splitOn_append_cons_self_of_not_mem (not_mem_lineBytes hline), ← pieces, ih hlines]
    rfl

/-- Records that are put behind a file stand on lines of their own exactly if it is framed. -/
theorem pieces_written_iff {base : Bytes} {lines : List Text}
    (h : ∀ line ∈ lines, Within 32 126 line) (hne : lines ≠ []) (rest : Bytes) :
    (∃ before, pieces (base ++ written lines ++ rest) =
        before ++ lines.map lineBytes ++ pieces rest) ↔ Framed base := by
  obtain ⟨front, last, -, hframed, happend⟩ := pieces_append base
  obtain ⟨line, lines, rfl⟩ := List.exists_cons_of_ne_nil hne
  rw [hframed, List.append_assoc, happend, pieces_written h]
  constructor
  · rintro ⟨before, hbefore⟩
    rw [List.append_assoc] at hbefore
    have hend := (List.append_inj' hbefore (by simp)).2
    simpa using hend
  · rintro rfl
    exact ⟨front, by simp⟩

end HostTelemetry.Sink
