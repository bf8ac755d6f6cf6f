import HostTelemetry.Stamp.Reader
import Mathlib

/-!
# Digits and their value

The digits of a number have it as their value, begin with no zero, and are as many as its size
says. A run of digits is read back from the front of any text that goes on with something else.
-/

set_option autoImplicit false

namespace HostTelemetry

namespace Digits

theorem value_append (b : Nat) (ds es : List Nat) :
    value b (ds ++ es) = value b ds * b ^ es.length + value b es := by
  induction es using List.reverseRecOn with
  | nil => simp [value]
  | append_singleton es e ih =>
    rw [← List.append_assoc, value, List.foldl_append, ← value, ih]
    have hlast : value b (es ++ [e]) = value b es * b + e := by simp [value]
    rw [hlast, List.length_append, List.length_singleton, pow_succ]
    simp only [List.foldl_cons, List.foldl_nil]
    ring

theorem value_singleton (b d : Nat) : value b [d] = d := by simp [value]

theorem value_zeros (b k : Nat) : value b (List.replicate k 0) = 0 := by
  induction k with
  | zero => rfl
  | succ k ih => rw [List.replicate_succ', value_append, ih, value_singleton]; simp

theorem value_zeros_append (b k : Nat) (ds : List Nat) :
    value b (List.replicate k 0 ++ ds) = value b ds := by
  rw [value_append, value_zeros, Nat.zero_mul, Nat.zero_add]

theorem value_append_zeros (b k : Nat) (ds : List Nat) :
    value b (ds ++ List.replicate k 0) = value b ds * b ^ k := by
  rw [value_append, value_zeros, List.length_replicate, Nat.add_zero]

theorem value_lt {b : Nat} (ds : List Nat) (h : ∀ d ∈ ds, d < b) :
    value b ds < b ^ ds.length := by
  induction ds using List.reverseRecOn with
  | nil => simp [value]
  | append_singleton ds d ih =>
    have hds := ih fun e he => h e (List.mem_append_left _ he)
    have hd := h d (by simp)
    rw [value_append, value_singleton, List.length_append, List.length_singleton, pow_succ]
    calc value b ds * b ^ 1 + d < value b ds * b + b := by
          rw [pow_one]
          exact Nat.add_lt_add_left hd _
      _ = (value b ds + 1) * b := (Nat.succ_mul _ _).symm
      _ ≤ b ^ ds.length * b := Nat.mul_le_mul_right b hds

theorem ofPos_zero : ofPos 0 = [] := by rw [ofPos, if_pos rfl]

theorem ofPos_pos {n : Nat} (h : 0 < n) : ofPos n = ofPos (n / 10) ++ [n % 10] := by
  rw [ofPos, if_neg (by omega)]

theorem value_ofPos (n : Nat) : value 10 (ofPos n) = n := by
  induction n using Nat.strong_induction_on with
  | _ n ih =>
    rcases Nat.eq_zero_or_pos n with rfl | hn
    · rw [ofPos_zero]
      rfl
    · rw [ofPos_pos hn, value_append, ih (n / 10) (by omega), value_singleton]
      simp
      omega

theorem ofPos_lt (n : Nat) : ∀ d ∈ ofPos n, d < 10 := by
  induction n using Nat.strong_induction_on with
  | _ n ih =>
    rcases Nat.eq_zero_or_pos n with rfl | hn
    · simp [ofPos_zero]
    · rw [ofPos_pos hn]
      intro d hd
      rcases List.mem_append.1 hd with hd | hd
      · exact ih (n / 10) (by omega) d hd
      · obtain rfl := List.mem_singleton.1 hd
        omega

theorem ofPos_head {n : Nat} (h : 0 < n) : ∃ d ds, ofPos n = d :: ds ∧ d ≠ 0 := by
  induction n using Nat.strong_induction_on with
  | _ n ih =>
    rw [ofPos_pos h]
    rcases Nat.eq_zero_or_pos (n / 10) with h10 | h10
    · rw [h10, ofPos_zero]
      exact ⟨n % 10, [], rfl, by omega⟩
    · obtain ⟨d, ds, hds, hd⟩ := ih (n / 10) (by omega) h10
      exact ⟨d, ds ++ [n % 10], by rw [hds]; rfl, hd⟩

theorem pow_le_of_ofPos {n : Nat} (h : 0 < n) : 10 ^ ((ofPos n).length - 1) ≤ n := by
  induction n using Nat.strong_induction_on with
  | _ n ih =>
    rw [ofPos_pos h, List.length_append, List.length_singleton, Nat.add_sub_cancel]
    rcases Nat.eq_zero_or_pos (n / 10) with h10 | h10
    · rw [h10, ofPos_zero]
      exact h
    · have hle := ih (n / 10) (by omega) h10
      obtain ⟨d, ds, hds, -⟩ := ofPos_head h10
      rw [hds, List.length_cons, Nat.add_sub_cancel] at hle
      rw [hds, List.length_cons, pow_succ]
      omega

theorem ofNat_pos {n : Nat} (h : 0 < n) : ofNat n = ofPos n := by rw [ofNat, if_neg (by omega)]

theorem value_ofNat (n : Nat) : value 10 (ofNat n) = n := by
  rcases Nat.eq_zero_or_pos n with rfl | hn
  · rfl
  · rw [ofNat_pos hn, value_ofPos]

theorem ofNat_lt (n : Nat) : ∀ d ∈ ofNat n, d < 10 := by
  rcases Nat.eq_zero_or_pos n with rfl | hn
  · simp [ofNat]
  · rw [ofNat_pos hn]
    exact ofPos_lt n

theorem ofNat_length_le {n w : Nat} (hw : 0 < w) (h : n < 10 ^ w) : (ofNat n).length ≤ w := by
  rcases Nat.eq_zero_or_pos n with rfl | hn
  · exact hw
  · rw [ofNat_pos hn]
    have hpow := Nat.lt_of_le_of_lt (pow_le_of_ofPos hn) h
    have := (Nat.pow_lt_pow_iff_right (by decide : 1 < 10)).1 hpow
    omega

end Digits

namespace Text

theorem digit_range {d : Nat} (h : d < 10) : digit d = 48 + d := by
  rw [digit, if_pos h]
  rfl

theorem isDigit_digit {d : Nat} (h : d < 10) : CodePoint.isDigit (digit d) = true := by
  rw [digit_range h]
  show (decide (48 ≤ 48 + d) && decide (48 + d ≤ 57)) = true
  simp
  omega

theorem all_isDigit_map {ds : List Nat} (h : ∀ d ∈ ds, d < 10) :
    ∀ c ∈ ds.map digit, CodePoint.isDigit c = true := by
  intro c hc
  obtain ⟨d, hd, rfl⟩ := List.mem_map.1 hc
  exact isDigit_digit (h d hd)

theorem map_digit_sub {ds : List Nat} (h : ∀ d ∈ ds, d < 10) :
    (ds.map digit).map (· - cp '0') = ds := by
  rw [List.map_map]
  conv_rhs => rw [← List.map_id ds]
  apply List.map_congr_left
  intro d hd
  show digit d - 48 = d
  rw [digit_range (h d hd)]
  exact Nat.add_sub_cancel_left 48 d

theorem digitsValue_map {ds : List Nat} (h : ∀ d ∈ ds, d < 10) :
    digitsValue (ds.map digit) = Digits.value 10 ds := by
  rw [digitsValue, map_digit_sub h]

theorem span_append (p : CodePoint → Bool) {s rest : Text} (hs : ∀ c ∈ s, p c = true)
    (hrest : ∀ c, rest.head? = some c → p c = false) :
    (s ++ rest).takeWhile p = s ∧ (s ++ rest).dropWhile p = rest := by
  induction s with
  | nil =>
    cases rest with
    | nil => exact ⟨rfl, rfl⟩
    | cons c rest => simp [hrest c rfl]
  | cons c s ih =>
    have hc := hs c (List.mem_cons_self ..)
    obtain ⟨ht, hd⟩ := ih fun d hd => hs d (List.mem_cons_of_mem _ hd)
    simp [hc, ht, hd]

/-- The digits that are written up to a width. -/
def paddedDigits (width n : Nat) : List Nat :=
  List.replicate (width - (Digits.ofNat n).length) 0 ++ Digits.ofNat n

theorem padded_eq (width n : Nat) : padded width n = (paddedDigits width n).map digit := by
  simp [padded, paddedDigits, ofNat, digit]

theorem paddedDigits_lt (width n : Nat) : ∀ d ∈ paddedDigits width n, d < 10 := by
  intro d hd
  rcases List.mem_append.1 hd with hd | hd
  · rw [List.eq_of_mem_replicate hd]
    decide
  · exact Digits.ofNat_lt n d hd

theorem padded_isDigit (width n : Nat) : ∀ c ∈ padded width n, CodePoint.isDigit c = true := by
  rw [padded_eq]
  exact all_isDigit_map (paddedDigits_lt width n)

theorem digitsValue_padded (width n : Nat) : digitsValue (padded width n) = n := by
  rw [padded_eq, digitsValue_map (paddedDigits_lt width n), paddedDigits,
    Digits.value_zeros_append, Digits.value_ofNat]

theorem le_padded_length (width n : Nat) : width ≤ (padded width n).length := by
  rw [padded_eq, List.length_map, paddedDigits, List.length_append, List.length_replicate]
  omega

theorem padded_length {width n : Nat} (hw : 0 < width) (h : n < 10 ^ width) :
    (padded width n).length = width := by
  have hle := Digits.ofNat_length_le hw h
  rw [padded_eq, List.length_map, paddedDigits, List.length_append, List.length_replicate]
  omega

theorem digits?_padded {width n : Nat} (hw : 0 < width) (h : n < 10 ^ width) (rest : Text) :
    digits? width (padded width n ++ rest) = some (n, rest) := by
  have hlength := padded_length hw h
  have hall : (padded width n).all CodePoint.isDigit = true :=
    List.all_eq_true.2 (padded_isDigit width n)
  rw [digits?, List.take_append_of_le_length (by omega), List.take_of_length_le (by omega),
    if_pos ⟨hlength, hall⟩, digitsValue_padded, List.drop_append_of_le_length (by omega),
    List.drop_of_length_le (by omega), List.nil_append]

end Text

end HostTelemetry
