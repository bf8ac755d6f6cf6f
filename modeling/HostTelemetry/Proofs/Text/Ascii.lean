import HostTelemetry.Proofs.Text.Digits
import HostTelemetry.Text.Utf8

/-!
# ASCII text

A text of ASCII has one byte for each code point, and is what its bytes stand for. Texts that are
made of pieces are ASCII because their code points are between two others in each piece.
-/

set_option autoImplicit false

namespace HostTelemetry

namespace Text

def Within (low high : Nat) (t : Text) : Prop := ∀ c : Nat, c ∈ t → low ≤ c ∧ c ≤ high

theorem Within.append {low high : Nat} {s t : Text} (hs : Within low high s)
    (ht : Within low high t) : Within low high (s ++ t) := by
  intro c hc
  rcases List.mem_append.1 hc with hc | hc
  · exact hs c hc
  · exact ht c hc

theorem Within.cons {low high : Nat} {c : CodePoint} {t : Text} (hc : low ≤ c ∧ c ≤ high)
    (ht : Within low high t) : Within low high (c :: t) := by
  intro d hd
  rcases List.mem_cons.1 hd with rfl | hd
  · exact hc
  · exact ht d hd

theorem Within.mono {low high l h : Nat} {t : Text} (ht : Within low high t) (hl : l ≤ low)
    (hh : high ≤ h) : Within l h t := by
  intro c hc
  have := ht c hc
  omega

theorem within_of_all {low high : Nat} {t : Text}
    (h : (t.all fun c => decide (low ≤ c ∧ c ≤ high)) = true) : Within low high t := by
  intro c hc
  simpa using List.all_eq_true.1 h c hc

theorem within_nil (low high : Nat) : Within low high [] := by
  intro c hc
  exact absurd hc (List.not_mem_nil)

theorem digits_within {ds : List Nat} (h : ∀ d ∈ ds, d < 10) {low high : Nat} (hlow : low ≤ 48)
    (hhigh : 57 ≤ high) : Within low high (ds.map digit) := by
  intro c hc
  obtain ⟨d, hd, rfl⟩ := List.mem_map.1 hc
  have hd10 := h d hd
  rw [digit_range hd10]
  omega

theorem padded_within (w n : Nat) {low high : Nat} (hlow : low ≤ 48) (hhigh : 57 ≤ high) :
    Within low high (padded w n) := by
  rw [padded_eq]
  exact digits_within (paddedDigits_lt w n) hlow hhigh

def Ascii (t : Text) : Prop := ∀ c ∈ t, c < 128

theorem Ascii.tail {c : CodePoint} {t : Text} (h : Ascii (c :: t)) : Ascii t :=
  fun d hd => h d (List.mem_cons_of_mem c hd)

theorem Within.ascii {low high : Nat} {t : Text} (ht : Within low high t) (hh : high < 128) :
    Ascii t :=
  fun c hc => Nat.lt_of_le_of_lt (ht c hc).2 hh

end Text

namespace Utf8

open Text (Ascii)

theorem not_surrogate {c : CodePoint} (h : c < 128) : ¬CodePoint.IsSurrogate c :=
  fun hs => Nat.not_lt.2 hs.1 (Nat.lt_trans h (by decide))

theorem flatMap_encodeOne {t : Text} (h : Ascii t) : t.flatMap encodeOne = t.map Nat.toUInt8 := by
  induction t with
  | nil => rfl
  | cons c t ih =>
    have hc : encodeOne c = [c.toUInt8] := if_pos (h c (List.mem_cons_self ..))
    rw [List.flatMap_cons, hc, ih h.tail]
    rfl

theorem refused_of_all {ok : CodePoint → Bool} {t : Text} (h : ∀ c ∈ t, ok c) :
    refused ok t = none := by
  rw [refused, List.dropWhile_eq_nil_iff.2 h]
  rfl

theorem encode_eq_ok_iff {t : Text} {bs : Bytes} :
    encode t = .ok bs ↔ (∀ c ∈ t, ¬CodePoint.IsSurrogate c) ∧ t.flatMap encodeOne = bs := by
  constructor
  · intro h
    unfold encode refused at h
    dsimp only at h
    split at h
    · cases h
    · rename_i hnone
      split at hnone
      · rename_i hrest
        rw [List.isEmpty_iff, List.dropWhile_eq_nil_iff] at hrest
        exact ⟨fun c hc => by simpa using hrest c hc, Except.ok.inj h⟩
      · cases hnone
  · rintro ⟨hc, rfl⟩
    rw [encode, refused_of_all fun c h => by simpa using hc c h]

theorem encode_ascii {t : Text} (h : Ascii t) : encode t = .ok (t.map Nat.toUInt8) :=
  encode_eq_ok_iff.2 ⟨fun c hc => not_surrogate (h c hc), flatMap_encodeOne h⟩

theorem toNat_toUInt8 {c : CodePoint} (h : c < 128) : c.toUInt8.toNat = c := by
  show c % 256 = c
  exact Nat.mod_eq_of_lt (Nat.lt_trans h (by decide))

theorem map_toNat_ascii {t : Text} (h : Ascii t) :
    (t.map Nat.toUInt8).map UInt8.toNat = t := by
  induction t with
  | nil => rfl
  | cons c t ih =>
    rw [List.map_cons, List.map_cons, toNat_toUInt8 (h c (List.mem_cons_self ..)),
      ih h.tail]

theorem decodeOne_ascii {c : CodePoint} (h : c < 128) (bs : Bytes) :
    decodeOne c.toUInt8 bs = .ok (c, bs) := by
  have hc := toNat_toUInt8 h
  rw [decodeOne, hc, if_pos h]

theorem decodeFrom_ascii {t : Text} (h : Ascii t) (n pos : Nat) (hn : t.length ≤ n) :
    decodeFrom n pos (t.map Nat.toUInt8) = (t, none) := by
  induction t generalizing n pos with
  | nil => rw [List.map_nil, decodeFrom]
  | cons c t ih =>
    obtain ⟨n, rfl⟩ : ∃ k, n = k + 1 := ⟨n - 1, by simp at hn; omega⟩
    have hlength : t.length ≤ n := by simpa using hn
    rw [List.map_cons, decodeFrom, decodeOne_ascii (h c (List.mem_cons_self ..))]
    dsimp only
    rw [ih h.tail n _ hlength]

theorem decode_ascii {t : Text} (h : Ascii t) : decode (t.map Nat.toUInt8) = .ok t := by
  rw [decode, decodeFrom_ascii h _ _ (by simp)]

end Utf8

end HostTelemetry
