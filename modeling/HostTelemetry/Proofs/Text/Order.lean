import HostTelemetry.Text.Basic
import Mathlib.Data.List.Lex

/-!
# The order of texts

Texts are ordered by their first code points that differ, so a sorted list of texts does not tell
in which order they were given.
-/

set_option autoImplicit false

namespace HostTelemetry.Text

theorem lt_iff (s t : Text) : lt s t = true ↔ s < t := by
  induction s generalizing t with
  | nil =>
    cases t with
    | nil => simp [lt]
    | cons b t => simp [lt]
  | cons a s ih =>
    cases t with
    | nil => simp [lt]
    | cons b t => simp [lt, List.cons_lt_cons_iff, ih]

theorem le_iff (s t : Text) : le s t = true ↔ s ≤ t := by
  rw [le, Bool.not_eq_true', Bool.eq_false_iff, ne_eq, lt_iff, not_lt]

theorem sort_perm {ts us : List Text} (h : ts.Perm us) : sort ts = sort us := by
  have htrans : ∀ s t u, le s t = true → le t u = true → le s u = true := by
    simp only [le_iff]
    exact fun s t u => le_trans
  have htotal : ∀ s t, (le s t || le t s) = true := by
    simp only [Bool.or_eq_true, le_iff]
    exact le_total
  have hperm : (sort ts).Perm (sort us) :=
    (List.mergeSort_perm ts le).trans (h.trans (List.mergeSort_perm us le).symm)
  refine List.Perm.eq_of_pairwise ?_ (List.pairwise_mergeSort htrans htotal ts)
    (List.pairwise_mergeSort htrans htotal us) hperm
  intro s t _ _ hst hts
  exact le_antisymm ((le_iff s t).1 hst) ((le_iff t s).1 hts)

end HostTelemetry.Text
