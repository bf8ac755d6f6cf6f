import HostTelemetry.Json.Printer
import HostTelemetry.Json.Reader
import HostTelemetry.Proofs.Text.Ascii
import HostTelemetry.Proofs.Text.Digits

/-!
# Strings in JSON

A string is written in ASCII, with escapes, and read back as it was. What is lost is a high
surrogate in front of a low one: their escapes are those of one code point.
-/

set_option autoImplicit false

namespace HostTelemetry.Json

open Text (digit)

/-- Code points of which no two would be read as one. -/
def Clean : Text → Prop
  | [] => True
  | c :: t => c < 0x110000 ∧
      (c.IsHighSurrogate → ∀ d, t.head? = some d → ¬CodePoint.IsLowSurrogate d) ∧ Clean t

theorem clean_of_forall {t : Text} (h : ∀ c ∈ t, c < 0x110000 ∧ ¬CodePoint.IsHighSurrogate c) :
    Clean t := by
  induction t with
  | nil => trivial
  | cons c t ih =>
    obtain ⟨hc, hhigh⟩ := h c (List.mem_cons_self ..)
    exact ⟨hc, fun a => absurd a hhigh, ih fun d hd => h d (List.mem_cons_of_mem _ hd)⟩

theorem clean_of_visible {t : Text} (h : Text.Within 32 126 t) : Clean t :=
  clean_of_forall fun c hc => by
    have hle := (h c hc).2
    exact ⟨Nat.lt_of_le_of_lt hle (by decide), fun a =>
      absurd (Nat.le_trans a.1 hle) (by decide)⟩

theorem hexValue?_digit {d : Nat} (h : d < 16) : CodePoint.hexValue? (digit d) = some d := by
  interval_cases d <;> rfl

theorem hex_four (u : Nat) :
    Text.hex 4 u = [digit (u / 4096 % 16), digit (u / 256 % 16), digit (u / 16 % 16),
      digit (u % 16)] := by
  simp [Text.hex, Nat.div_div_eq_div_mul]

theorem hex4?_hex {u : Nat} (h : u < 0x10000) (t : Text) : hex4? (Text.hex 4 u ++ t) = some u := by
  have hvalue : Digits.value 16 [u / 4096 % 16, u / 256 % 16, u / 16 % 16, u % 16] = u := by
    simp only [Digits.value, List.foldl_cons, List.foldl_nil]
    omega
  have hdigit : ∀ n, CodePoint.hexValue? (digit (n % 16)) = some (n % 16) := fun n =>
    hexValue?_digit (Nat.mod_lt n (by decide))
  rw [hex4?, hex_four]
  simp [hdigit, hvalue]

theorem unit_eq (u : Nat) (t : Text) : unit u ++ t = 92 :: cp 'u' :: (Text.hex 4 u ++ t) := rfl

theorem drop_unit (u : Nat) (t : Text) : (unit u ++ t).drop 6 = t := by
  rw [unit_eq, hex_four]
  rfl

inductive Escaped (c : CodePoint) : Text → Prop
  | simple {e : CodePoint} (short : simpleEscape? e = some c) (other : e ≠ cp 'u') :
    Escaped c [92, e]
  | plain (low : 32 ≤ c) (quote : c ≠ 34) (slash : c ≠ 92) : Escaped c [c]
  | unit (one : c < 0x10000) : Escaped c (unit c)
  | pair (two : 0x10000 ≤ c) : Escaped c
    (Json.unit (0xD800 + (c - 0x10000) / 0x400) ++ Json.unit (0xDC00 + (c - 0x10000) % 0x400))

theorem escaped (c : CodePoint) : Escaped c (escape c) := by
  unfold escape
  by_cases h34 : c = 34
  · rw [if_pos h34, h34]
    exact .simple rfl (by decide)
  rw [if_neg h34]
  by_cases h92 : c = 92
  · rw [if_pos h92, h92]
    exact .simple rfl (by decide)
  rw [if_neg h92]
  by_cases h10 : c = 10
  · rw [if_pos h10, h10]
    exact .simple rfl (by decide)
  rw [if_neg h10]
  by_cases h13 : c = 13
  · rw [if_pos h13, h13]
    exact .simple rfl (by decide)
  rw [if_neg h13]
  by_cases h9 : c = 9
  · rw [if_pos h9, h9]
    exact .simple rfl (by decide)
  rw [if_neg h9]
  by_cases h12 : c = 12
  · rw [if_pos h12, h12]
    exact .simple rfl (by decide)
  rw [if_neg h12]
  by_cases h8 : c = 8
  · rw [if_pos h8, h8]
    exact .simple rfl (by decide)
  rw [if_neg h8]
  by_cases hplain : 32 ≤ c ∧ c < 127
  · rw [if_pos hplain]
    exact .plain hplain.1 h34 h92
  rw [if_neg hplain]
  by_cases hone : c < 0x10000
  · rw [if_pos hone]
    exact .unit hone
  · rw [if_neg hone]
    exact .pair (Nat.le_of_not_lt hone)

theorem joinPair_single {c : CodePoint} (h : ¬c.IsHighSurrogate) (t : Text) :
    joinPair c t = .ok (c, t) := by
  rw [joinPair, if_neg fun a => h a.1]

theorem joinPair_other (c : CodePoint) {t : Text} (h : t.take 2 ≠ lit "\\u") :
    joinPair c t = .ok (c, t) := by
  rw [joinPair, if_neg fun a => h a.2.1]

theorem surrogates {c : Nat} (low : 0x10000 ≤ c) (high : c < 0x110000) :
    CodePoint.IsHighSurrogate (0xD800 + (c - 0x10000) / 0x400) ∧
      CodePoint.IsLowSurrogate (0xDC00 + (c - 0x10000) % 0x400) ∧
      0x10000 + (0xD800 + (c - 0x10000) / 0x400 - 0xD800) * 0x400 +
        (0xDC00 + (c - 0x10000) % 0x400 - 0xDC00) = c := by
  refine ⟨⟨?_, ?_⟩, ⟨?_, ?_⟩, ?_⟩
  · show 0xD800 ≤ 0xD800 + (c - 0x10000) / 0x400
    omega
  · show 0xD800 + (c - 0x10000) / 0x400 ≤ 0xDBFF
    omega
  · show 0xDC00 ≤ 0xDC00 + (c - 0x10000) % 0x400
    omega
  · show 0xDC00 + (c - 0x10000) % 0x400 ≤ 0xDFFF
    omega
  · omega

theorem high_lt {u : CodePoint} (h : u.IsHighSurrogate) : u < 0x10000 :=
  Nat.lt_of_le_of_lt h.2 (by decide)

theorem low_lt {u : CodePoint} (h : u.IsLowSurrogate) : u < 0x10000 :=
  Nat.lt_of_le_of_lt h.2 (by decide)

theorem not_low_of_high {u : CodePoint} (h : u.IsHighSurrogate) : ¬u.IsLowSurrogate :=
  fun a => absurd (Nat.le_trans a.1 h.2) (by decide)

theorem joinPair_unit (c : CodePoint) {u : Nat} (hu : u < 0x10000)
    (hlow : ¬CodePoint.IsLowSurrogate u) (t : Text) :
    joinPair c (unit u ++ t) = .ok (c, unit u ++ t) := by
  rw [joinPair]
  split
  · rw [unit_eq]
    simp only [List.drop_succ_cons, List.drop_zero, hex4?_hex hu, if_neg hlow]
  · rfl

theorem joinPair_escape (c : CodePoint) {d : CodePoint} (hd : d < 0x110000)
    (hlow : ¬d.IsLowSurrogate) (t : Text) :
    joinPair c (escape d ++ t) = .ok (c, escape d ++ t) := by
  have hescaped := escaped d
  generalize escape d = s at hescaped ⊢
  cases hescaped with
  | simple short other =>
    apply joinPair_other
    intro h
    exact other (List.cons.inj (List.cons.inj h).2).1
  | plain low quote slash =>
    apply joinPair_other
    intro h
    exact slash (List.cons.inj h).1
  | unit one => exact joinPair_unit c one hlow t
  | pair two =>
    obtain ⟨hhigh, -⟩ := surrogates two hd
    rw [List.append_assoc]
    exact joinPair_unit c (high_lt hhigh) (not_low_of_high hhigh) _

theorem readEscape_unit (start : Text) {u : Nat} (hu : u < 0x10000) {t : Text} (ht : t ≠ []) :
    readEscape start (unit u ++ t) = joinPair u t := by
  have hdrop : (Text.hex 4 u ++ t).drop 4 = t := by
    rw [hex_four]
    rfl
  rw [unit_eq, readEscape]
  simp only [List.drop_succ_cons, List.drop_zero, if_true, hdrop, hex4?_hex hu]
  rw [if_neg (by simpa using ht)]

theorem readEscape_simple (start : Text) {c e : CodePoint} (short : simpleEscape? e = some c)
    (other : e ≠ cp 'u') (t : Text) : readEscape start (92 :: e :: t) = .ok (c, t) := by
  rw [readEscape]
  simp only [List.drop_succ_cons, List.drop_zero, if_neg other, short]

/-- A pair of escapes is read as the code point above 0xFFFF that they are of. -/
theorem readEscape_pair (start : Text) {c : CodePoint} (low : 0x10000 ≤ c) (high : c < 0x110000)
    {t : Text} (ht : t ≠ []) :
    readEscape start (unit (0xD800 + (c - 0x10000) / 0x400) ++
      (unit (0xDC00 + (c - 0x10000) % 0x400) ++ t)) = .ok (c, t) := by
  obtain ⟨hhigh, hlow, hvalue⟩ := surrogates low high
  have hdrop : (unit (0xDC00 + (c - 0x10000) % 0x400) ++ t).drop 6 = t := drop_unit _ t
  rw [readEscape_unit start (high_lt hhigh) (by rw [unit_eq]; simp), joinPair, hdrop,
    if_pos ⟨hhigh, rfl, by simpa using ht⟩]
  rw [unit_eq]
  simp only [List.drop_succ_cons, List.drop_zero, hex4?_hex (low_lt hlow), if_pos hlow, hvalue]

/-- One code point is read from in front of a text that it is not joined to. -/
theorem readString_escape (start : Text) {c : CodePoint} (hc : c < 0x110000) {t : Text}
    (ht : t ≠ []) (hjoin : joinPair c t = .ok (c, t)) (n : Nat) :
    readString start (n + 1) (escape c ++ t) =
      (readString start n t).map fun p => (c :: p.1, p.2) := by
  have hescaped := escaped c
  generalize escape c = s at hescaped ⊢
  have hslash : ∀ more, readEscape start (92 :: more) = .ok (c, t) →
      readString start (n + 1) (92 :: more) =
        (readString start n t).map fun p => (c :: p.1, p.2) := by
    intro more hread
    rw [readString, if_neg (by decide), if_pos rfl, hread]
    simp only [bind, Except.bind]
    rcases readString start n t with _ | ⟨s, rest⟩ <;> rfl
  cases hescaped with
  | simple short other => exact hslash _ (readEscape_simple start short other t)
  | plain low quote slash =>
    rw [List.singleton_append, readString, if_neg quote, if_neg slash, if_neg (Nat.not_lt.2 low)]
    simp only [bind, Except.bind]
    rcases readString start n t with _ | ⟨s, rest⟩ <;> rfl
  | unit one => exact hslash _ ((readEscape_unit start one ht).trans hjoin)
  | pair two =>
    rw [List.append_assoc]
    exact hslash _ (readEscape_pair start two hc ht)

theorem joinPair_clean {c : CodePoint} {t : Text} (h : Clean (c :: t)) (rest : Text) :
    joinPair c (t.flatMap escape ++ 34 :: rest) = .ok (c, t.flatMap escape ++ 34 :: rest) := by
  by_cases hhigh : c.IsHighSurrogate
  · cases t with
    | nil => exact joinPair_other c (by simp [lit])
    | cons d t =>
      rw [List.flatMap_cons, List.append_assoc]
      exact joinPair_escape c h.2.2.1 (h.2.1 hhigh d rfl) _
  · exact joinPair_single hhigh _

theorem readString_clean (start : Text) {t : Text} (h : Clean t) (n : Nat) (rest : Text) :
    readString start (t.length + n + 1) (t.flatMap escape ++ 34 :: rest) = .ok (t, rest) := by
  induction t with
  | nil => rfl
  | cons c t ih =>
    have hlength : (c :: t).length + n + 1 = (t.length + n + 1) + 1 := by
      rw [List.length_cons]
      omega
    rw [hlength, List.flatMap_cons, List.append_assoc,
      readString_escape start h.1 (by simp) (joinPair_clean h rest), ih h.2.2]
    rfl

theorem length_le_escape (t : Text) : t.length ≤ (t.flatMap escape).length := by
  induction t with
  | nil => exact Nat.le_refl _
  | cons c t ih =>
    have hone : 1 ≤ (escape c).length := by
      have hescaped := escaped c
      generalize escape c = s at hescaped ⊢
      cases hescaped <;> simp [unit, lit, Nat.add_comm]
    rw [List.flatMap_cons, List.length_append, List.length_cons]
    omega

theorem readString_string {t : Text} (h : Clean t) (rest : Text) :
    ∃ r, string t ++ rest = 34 :: r ∧ readString (34 :: r) (r.length + 1) r = .ok (t, rest) := by
  refine ⟨t.flatMap escape ++ 34 :: rest, by simp [string], ?_⟩
  have hcount : (t.flatMap escape ++ 34 :: rest).length + 1 =
      t.length + ((t.flatMap escape).length - t.length + rest.length + 1) + 1 := by
    have hle := length_le_escape t
    simp only [List.length_append, List.length_cons]
    omega
  rw [hcount]
  exact readString_clean _ h _ rest

end HostTelemetry.Json
