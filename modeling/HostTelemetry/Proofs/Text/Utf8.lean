import HostTelemetry.Proofs.Text.Ascii
import Mathlib

/-!
# What bytes stand for

The code points that have bytes are those below 0x110000 that are no surrogates. Reading bytes, at
once or in pieces, gives the one text that is written with them, and fails if there is none.
-/

set_option autoImplicit false

namespace HostTelemetry

namespace CodePoint

def IsScalar (c : CodePoint) : Prop := c < 0x110000 ∧ ¬c.IsSurrogate

theorem isScalar_iff {c : Nat} : IsScalar c ↔ c < 0x110000 ∧ (c < 0xD800 ∨ 0xDFFF < c) := by
  show c < 0x110000 ∧ ¬(0xD800 ≤ c ∧ c ≤ 0xDFFF) ↔ _
  omega

end CodePoint

namespace Utf8

def Spells (t : Text) (bs : Bytes) : Prop := (∀ c ∈ t, c.IsScalar) ∧ bs = t.flatMap encodeOne

theorem Spells.nil : Spells [] [] := ⟨fun _ h => absurd h List.not_mem_nil, rfl⟩

theorem Spells.cons {c : CodePoint} {t : Text} {bs : Bytes} (hc : c.IsScalar) (h : Spells t bs) :
    Spells (c :: t) (encodeOne c ++ bs) :=
  ⟨List.forall_mem_cons.2 ⟨hc, h.1⟩, by rw [h.2, List.flatMap_cons]⟩

theorem Spells.append {s t : Text} {as bs : Bytes} (hs : Spells s as) (ht : Spells t bs) :
    Spells (s ++ t) (as ++ bs) :=
  ⟨fun c hc => (List.mem_append.1 hc).elim (hs.1 c) (ht.1 c),
    by rw [hs.2, ht.2, List.flatMap_append]⟩

theorem eq_toUInt8 {b : UInt8} {n : Nat} (h : n = b.toNat) : n.toUInt8 = b := by
  apply UInt8.toNat_inj.1
  have := b.toNat_lt
  show n % 256 = b.toNat
  omega

theorem exists_byte {n : Nat} (h : n < 256) : ∃ b : UInt8, n = b.toNat :=
  ⟨n.toUInt8, (Nat.mod_eq_of_lt h).symm⟩

section

variable {c : Nat} (b b₁ b₂ b₃ : UInt8)

theorem encodeOne_one (h : c < 0x80) (hb : c = b.toNat) : encodeOne c = [b] := by
  rw [← eq_toUInt8 hb]
  exact if_pos h

theorem encodeOne_two (h : 0x80 ≤ c) (h' : c < 0x800) (hb : 0xC0 + c / 0x40 = b.toNat)
    (hb₁ : 0x80 + c % 0x40 = b₁.toNat) : encodeOne c = [b, b₁] := by
  rw [← eq_toUInt8 hb, ← eq_toUInt8 hb₁]
  exact (if_neg (Nat.not_lt.2 h)).trans (if_pos h')

theorem encodeOne_three (h : 0x800 ≤ c) (h' : c < 0x10000) (hb : 0xE0 + c / 0x1000 = b.toNat)
    (hb₁ : 0x80 + c / 0x40 % 0x40 = b₁.toNat) (hb₂ : 0x80 + c % 0x40 = b₂.toNat) :
    encodeOne c = [b, b₁, b₂] := by
  have hone : ¬c < 0x80 := by omega
  rw [← eq_toUInt8 hb, ← eq_toUInt8 hb₁, ← eq_toUInt8 hb₂]
  exact (if_neg hone).trans ((if_neg (Nat.not_lt.2 h)).trans (if_pos h'))

theorem encodeOne_four (h : 0x10000 ≤ c) (hb : 0xF0 + c / 0x40000 = b.toNat)
    (hb₁ : 0x80 + c / 0x1000 % 0x40 = b₁.toNat) (hb₂ : 0x80 + c / 0x40 % 0x40 = b₂.toNat)
    (hb₃ : 0x80 + c % 0x40 = b₃.toNat) : encodeOne c = [b, b₁, b₂, b₃] := by
  have hone : ¬c < 0x80 := by omega
  have htwo : ¬c < 0x800 := by omega
  rw [← eq_toUInt8 hb, ← eq_toUInt8 hb₁, ← eq_toUInt8 hb₂, ← eq_toUInt8 hb₃]
  exact (if_neg hone).trans ((if_neg htwo).trans (if_neg (Nat.not_lt.2 h)))

end

theorem lead?_two {b : UInt8} (h : 0xC2 ≤ b.toNat) (h' : b.toNat ≤ 0xDF) :
    lead? b = some (1, b.toNat - 0xC0, 0x80, 0xBF) := by
  rw [lead?, if_pos ⟨h, h'⟩]

theorem lead?_three {b : UInt8} (h : 0xE0 ≤ b.toNat) (h' : b.toNat ≤ 0xEF) :
    lead? b = some (2, b.toNat - 0xE0, if b.toNat = 0xE0 then 0xA0 else 0x80,
      if b.toNat = 0xED then 0x9F else 0xBF) := by
  rw [lead?, if_neg (by omega)]
  split
  · simp [*]
  · split
    · simp [*]
    · rw [if_pos (by omega)]

theorem lead?_four {b : UInt8} (h : 0xF0 ≤ b.toNat) (h' : b.toNat ≤ 0xF4) :
    lead? b = some (3, b.toNat - 0xF0, if b.toNat = 0xF0 then 0x90 else 0x80,
      if b.toNat = 0xF4 then 0x8F else 0xBF) := by
  rw [lead?, if_neg (by omega), if_neg (by omega), if_neg (by omega), if_neg (by omega)]
  split
  · simp [*]
  · split
    · have : b.toNat ≠ 0xF4 := by omega
      simp [*]
    · rw [if_pos (by omega)]
      have : b.toNat = 0xF4 := by omega
      simp [*]

theorem lead?_none {b : UInt8} (h : b.toNat < 0xC2 ∨ 0xF4 < b.toNat) : lead? b = none := by
  rw [lead?]
  repeat rw [if_neg (by omega)]

theorem continued_zero {acc low high : Nat} {seen bs rest : Bytes} {c : Nat}
    (h : continued 0 acc low high seen bs = .ok (c, rest)) : c = acc ∧ rest = bs := by
  cases h
  exact ⟨rfl, rfl⟩

theorem continued_succ {k acc low high : Nat} {seen bs rest : Bytes} {c : Nat}
    (h : continued (k + 1) acc low high seen bs = .ok (c, rest)) :
    ∃ b more, bs = b :: more ∧ low ≤ b.toNat ∧ b.toNat ≤ high ∧
      continued k (acc * 0x40 + (b.toNat - 0x80)) 0x80 0xBF (seen ++ [b]) more = .ok (c, rest) := by
  rcases bs with _ | ⟨b, more⟩
  · cases h
  · rw [continued] at h
    split at h
    · rename_i hb
      exact ⟨b, more, rfl, hb.1, hb.2, h⟩
    · cases h

theorem continued_cons {k acc low high : Nat} {b : UInt8} (seen bs : Bytes) (h : low ≤ b.toNat)
    (h' : b.toNat ≤ high) : continued (k + 1) acc low high seen (b :: bs) =
      continued k (acc * 0x40 + (b.toNat - 0x80)) 0x80 0xBF (seen ++ [b]) bs := by
  rw [continued, if_pos ⟨h, h'⟩]

theorem decodeOne_sound {b : UInt8} {bs rest : Bytes} {c : Nat}
    (h : decodeOne b bs = .ok (c, rest)) : CodePoint.IsScalar c ∧ b :: bs = encodeOne c ++ rest := by
  have hb := b.toNat_lt
  unfold decodeOne at h
  split at h
  · rename_i hone
    cases h
    rw [encodeOne_one b hone rfl]
    exact ⟨CodePoint.isScalar_iff.2 (by omega), rfl⟩
  · by_cases hnone : b.toNat < 0xC2 ∨ 0xF4 < b.toNat
    · rw [lead?_none hnone] at h
      cases h
    · by_cases htwo : b.toNat ≤ 0xDF
      · rw [lead?_two (by omega) htwo] at h
        obtain ⟨b₁, bs, rfl, hlow, hhigh, h⟩ := continued_succ h
        obtain ⟨hc, rfl⟩ := continued_zero h
        rw [encodeOne_two b b₁ (by omega) (by omega) (by omega) (by omega)]
        exact ⟨CodePoint.isScalar_iff.2 (by omega), rfl⟩
      · by_cases hthree : b.toNat ≤ 0xEF
        · rw [lead?_three (by omega) hthree] at h
          obtain ⟨b₁, bs, rfl, hlow, hhigh, h⟩ := continued_succ h
          obtain ⟨b₂, bs, rfl, hlow₂, hhigh₂, h⟩ := continued_succ h
          obtain ⟨hc, rfl⟩ := continued_zero h
          have hbounds : 0x80 ≤ b₁.toNat ∧ b₁.toNat ≤ 0xBF ∧
              (b.toNat = 0xE0 → 0xA0 ≤ b₁.toNat) ∧ (b.toNat = 0xED → b₁.toNat ≤ 0x9F) := by
            split at hlow <;> split at hhigh <;> omega
          rw [encodeOne_three b b₁ b₂ (by omega) (by omega) (by omega)
            (by omega) (by omega)]
          exact ⟨CodePoint.isScalar_iff.2 (by omega), rfl⟩
        · rw [lead?_four (by omega) (by omega)] at h
          obtain ⟨b₁, bs, rfl, hlow, hhigh, h⟩ := continued_succ h
          obtain ⟨b₂, bs, rfl, hlow₂, hhigh₂, h⟩ := continued_succ h
          obtain ⟨b₃, bs, rfl, hlow₃, hhigh₃, h⟩ := continued_succ h
          obtain ⟨hc, rfl⟩ := continued_zero h
          have hbounds : 0x80 ≤ b₁.toNat ∧ b₁.toNat ≤ 0xBF ∧
              (b.toNat = 0xF0 → 0x90 ≤ b₁.toNat) ∧ (b.toNat = 0xF4 → b₁.toNat ≤ 0x8F) := by
            split at hlow <;> split at hhigh <;> omega
          rw [encodeOne_four b b₁ b₂ b₃ (by omega) (by omega)
            (by omega) (by omega) (by omega)]
          exact ⟨CodePoint.isScalar_iff.2 (by omega), rfl⟩

theorem decodeOne_encodeOne {c : Nat} (hc : CodePoint.IsScalar c) (rest : Bytes) :
    ∃ b bs, encodeOne c ++ rest = b :: bs ∧ decodeOne b bs = .ok (c, rest) := by
  obtain ⟨hmax, hsurrogate⟩ := CodePoint.isScalar_iff.1 hc
  by_cases hone : c < 0x80
  · obtain ⟨b, hb⟩ := exists_byte (n := c) (by omega)
    refine ⟨b, rest, by rw [encodeOne_one b hone hb]; rfl, ?_⟩
    rw [decodeOne, if_pos (by omega), hb]
  · by_cases htwo : c < 0x800
    · obtain ⟨b, hb⟩ := exists_byte (n := 0xC0 + c / 0x40) (by omega)
      obtain ⟨b₁, hb₁⟩ := exists_byte (n := 0x80 + c % 0x40) (by omega)
      refine ⟨b, b₁ :: rest, by rw [encodeOne_two b b₁ (by omega) htwo hb hb₁]; rfl, ?_⟩
      have hval : (b.toNat - 0xC0) * 0x40 + (b₁.toNat - 0x80) = c := by omega
      rw [decodeOne, if_neg (by omega), lead?_two (by omega) (by omega)]
      dsimp only
      rw [continued_cons _ _ (by omega) (by omega), continued, hval]
    · by_cases hthree : c < 0x10000
      · obtain ⟨b, hb⟩ := exists_byte (n := 0xE0 + c / 0x1000) (by omega)
        obtain ⟨b₁, hb₁⟩ := exists_byte (n := 0x80 + c / 0x40 % 0x40) (by omega)
        obtain ⟨b₂, hb₂⟩ := exists_byte (n := 0x80 + c % 0x40) (by omega)
        refine ⟨b, b₁ :: b₂ :: rest,
          by rw [encodeOne_three b b₁ b₂ (by omega) hthree hb hb₁ hb₂]; rfl, ?_⟩
        have hval : ((b.toNat - 0xE0) * 0x40 + (b₁.toNat - 0x80)) * 0x40 + (b₂.toNat - 0x80) = c := by
          omega
        rw [decodeOne, if_neg (by omega), lead?_three (by omega) (by omega)]
        dsimp only
        rw [continued_cons _ _ (by split <;> omega) (by split <;> omega),
          continued_cons _ _ (by omega) (by omega), continued, hval]
      · obtain ⟨b, hb⟩ := exists_byte (n := 0xF0 + c / 0x40000) (by omega)
        obtain ⟨b₁, hb₁⟩ := exists_byte (n := 0x80 + c / 0x1000 % 0x40) (by omega)
        obtain ⟨b₂, hb₂⟩ := exists_byte (n := 0x80 + c / 0x40 % 0x40) (by omega)
        obtain ⟨b₃, hb₃⟩ := exists_byte (n := 0x80 + c % 0x40) (by omega)
        refine ⟨b, b₁ :: b₂ :: b₃ :: rest,
          by rw [encodeOne_four b b₁ b₂ b₃ (by omega) hb hb₁ hb₂ hb₃]; rfl, ?_⟩
        have hval : (((b.toNat - 0xF0) * 0x40 + (b₁.toNat - 0x80)) * 0x40 + (b₂.toNat - 0x80)) * 0x40 +
            (b₃.toNat - 0x80) = c := by
          omega
        rw [decodeOne, if_neg (by omega), lead?_four (by omega) (by omega)]
        dsimp only
        rw [continued_cons _ _ (by split <;> omega) (by split <;> omega),
          continued_cons _ _ (by omega) (by omega), continued_cons _ _ (by omega) (by omega),
          continued, hval]

theorem continued_truncated {k acc low high : Nat} {seen bs all : Bytes} (hall : all = seen ++ bs)
    {read : Bytes} (h : continued k acc low high seen bs = .error (read, .truncated)) :
    read = all := by
  induction k generalizing acc low high seen bs with
  | zero => cases h
  | succ k ih =>
    rcases bs with _ | ⟨b, bs⟩
    · cases h
      rw [hall, List.append_nil]
    · rw [continued] at h
      split at h
      · exact ih (by rw [hall, List.append_assoc, List.singleton_append]) h
      · cases h

/-- More bytes do not mend a code point that is not cut off. -/
theorem continued_more {k acc low high : Nat} {seen bs read : Bytes} {r : Reason}
    (hr : r ≠ .truncated) (h : continued k acc low high seen bs = .error (read, r))
    (more : Bytes) : continued k acc low high seen (bs ++ more) = .error (read, r) := by
  induction k generalizing acc low high seen bs with
  | zero => cases h
  | succ k ih =>
    rcases bs with _ | ⟨b, bs⟩
    · cases h
      exact absurd rfl hr
    · rw [continued] at h
      rw [List.cons_append, continued]
      split at h
      · rename_i hb
        rw [if_pos hb]
        exact ih h
      · rename_i hb
        rw [if_neg hb]
        exact h

theorem decodeOne_truncated {b : UInt8} {bs read : Bytes}
    (h : decodeOne b bs = .error (read, .truncated)) : read = b :: bs := by
  unfold decodeOne at h
  split at h
  · cases h
  · split at h
    · cases h
    · exact continued_truncated rfl h

theorem decodeOne_more {b : UInt8} {bs read : Bytes} {r : Reason} (hr : r ≠ .truncated)
    (h : decodeOne b bs = .error (read, r)) (more : Bytes) :
    decodeOne b (bs ++ more) = .error (read, r) := by
  unfold decodeOne at h ⊢
  split at h
  · cases h
  · rename_i hb
    rw [if_neg hb]
    split at h
    · exact h
    · exact continued_more hr h more

theorem not_spells {b : UInt8} {bs : Bytes} {e : Bytes × Reason}
    (h : decodeOne b bs = .error e) (t : Text) : ¬Spells t (b :: bs) := by
  rintro ⟨hc, hbs⟩
  rcases t with _ | ⟨c, t⟩
  · cases hbs
  · obtain ⟨b', bs', henc, hdec⟩ :=
      decodeOne_encodeOne (hc c List.mem_cons_self) (t.flatMap encodeOne)
    rw [List.flatMap_cons, henc] at hbs
    cases hbs
    rw [h] at hdec
    cases hdec

theorem spells_append_iff {s t : Text} {as bs : Bytes} (hs : Spells s as) :
    Spells t (as ++ bs) ↔ ∃ more, t = s ++ more ∧ Spells more bs := by
  constructor
  · intro ht
    induction s generalizing t as with
    | nil =>
      rw [hs.2] at ht
      exact ⟨t, rfl, ht⟩
    | cons c s ih =>
      obtain ⟨hc, hs'⟩ := List.forall_mem_cons.1 hs.1
      obtain ⟨b, rest, henc, hdec⟩ := decodeOne_encodeOne hc (s.flatMap encodeOne ++ bs)
      rw [hs.2, List.flatMap_cons, List.append_assoc] at ht
      rcases t with _ | ⟨d, t⟩
      · rw [henc] at ht
        cases ht.2
      · obtain ⟨hd, ht'⟩ := List.forall_mem_cons.1 ht.1
        obtain ⟨b', rest', henc', hdec'⟩ := decodeOne_encodeOne hd (t.flatMap encodeOne)
        have hsame : b :: rest = b' :: rest' := by
          rw [← henc, ht.2, List.flatMap_cons, henc']
        cases hsame
        obtain ⟨rfl, htail⟩ := Prod.mk.inj (Except.ok.inj (hdec.symm.trans hdec'))
        obtain ⟨more, rfl, hmore⟩ := ih ⟨hs', rfl⟩ ⟨ht', htail⟩
        exact ⟨more, rfl, hmore⟩
  · rintro ⟨more, rfl, hmore⟩
    exact hs.append hmore

theorem Spells.unique {s t : Text} {bs : Bytes} (hs : Spells s bs) (ht : Spells t bs) :
    t = s := by
  rw [← List.append_nil bs] at ht
  obtain ⟨more, rfl, hmore⟩ := (spells_append_iff hs).1 ht
  have hnil : more = [] := by
    rcases more with _ | ⟨c, more⟩
    · rfl
    · obtain ⟨b, rest, henc, -⟩ :=
        decodeOne_encodeOne (hmore.1 c List.mem_cons_self) (more.flatMap encodeOne)
      have := hmore.2
      rw [List.flatMap_cons, henc] at this
      cases this
  rw [hnil, List.append_nil]

/-- What reading bytes stops at: their end, or a code point that is cut off or spoilt. -/
def Stops (rest : Bytes) : Option Unreadable → Prop
  | none => rest = []
  | some u => (∀ t, ¬Spells t rest) ∧
    if u.reason = .truncated then u.bytes = rest else ∀ more t, ¬Spells t (rest ++ more)

theorem decodeFrom_spells {n : Nat} (pos : Nat) {bs : Bytes} (hn : bs.length ≤ n) :
    ∃ front rest, bs = front ++ rest ∧ Spells (decodeFrom n pos bs).1 front ∧
      Stops rest (decodeFrom n pos bs).2 := by
  induction n generalizing pos bs with
  | zero =>
    obtain rfl := List.length_eq_zero_iff.1 (Nat.le_zero.1 hn)
    exact ⟨[], [], rfl, Spells.nil, rfl⟩
  | succ n ih =>
    rcases bs with _ | ⟨b, bs⟩
    · exact ⟨[], [], rfl, Spells.nil, rfl⟩
    · rw [decodeFrom]
      rcases h : decodeOne b bs with ⟨seen, r⟩ | ⟨c, rest⟩
      · refine ⟨[], b :: bs, rfl, Spells.nil, not_spells h, ?_⟩
        dsimp only
        split
        · rename_i hr
          subst hr
          exact decodeOne_truncated h
        · rename_i hr
          exact fun more => not_spells (decodeOne_more hr h more)
      · obtain ⟨hc, hbs⟩ := decodeOne_sound h
        have hlength : rest.length ≤ n := by
          have hsum := congrArg List.length hbs
          obtain ⟨b', bs', henc, -⟩ := decodeOne_encodeOne hc []
          rw [List.append_nil] at henc
          rw [List.length_append, henc, List.length_cons, List.length_cons] at hsum
          rw [List.length_cons] at hn
          omega
        obtain ⟨front, last, hrest, hfront, hlast⟩ :=
          ih (pos + (bs.length + 1 - rest.length)) hlength
        exact ⟨encodeOne c ++ front, last, by rw [hbs, hrest, List.append_assoc],
          hfront.cons hc, hlast⟩

/-- Bytes are read exactly to the text that is written with them. -/
theorem decode_eq_ok_iff {bs : Bytes} {t : Text} : decode bs = .ok t ↔ Spells t bs := by
  obtain ⟨front, rest, hbs, hfront, hrest⟩ := decodeFrom_spells 0 (Nat.le_refl bs.length)
  rw [decode]
  rcases hdec : decodeFrom bs.length 0 bs with ⟨s, _ | u⟩
  · rw [hdec] at hfront hrest
    obtain rfl : rest = [] := hrest
    rw [List.append_nil] at hbs
    subst hbs
    constructor
    · intro h
      cases h
      exact hfront
    · intro h
      rw [hfront.unique h]
  · rw [hdec] at hfront hrest
    constructor
    · intro h
      cases h
    · intro h
      rw [hbs, spells_append_iff hfront] at h
      obtain ⟨more, -, hmore⟩ := h
      exact absurd hmore (hrest.1 more)

theorem append_eq_iff {s t : Text} {x : Text × Option Unreadable} :
    (s ++ x.1, x.2) = (t, none) ↔ ∃ more, t = s ++ more ∧ x = (more, none) := by
  obtain ⟨more, fault⟩ := x
  constructor
  · intro h
    cases h
    exact ⟨more, rfl, rfl⟩
  · rintro ⟨_, rfl, h⟩
    cases h
    rfl

theorem decodePieces_eq_iff {ps : List Bytes} {waiting : Bytes} {t : Text} :
    decodePieces waiting ps = (t, none) ↔ Spells t (waiting ++ ps.flatten) := by
  induction ps generalizing waiting t with
  | nil =>
    rw [decodePieces, List.flatten_nil, List.append_nil, ← decode_eq_ok_iff]
    rcases decode waiting with u | s
    · exact iff_of_false nofun nofun
    · simp
  | cons p ps ih =>
    obtain ⟨front, rest, hbs, hfront, hrest⟩ :=
      decodeFrom_spells 0 (Nat.le_refl (waiting ++ p).length)
    rw [decodePieces, List.flatten_cons, ← List.append_assoc]
    rcases hdec : decodeFrom (waiting ++ p).length 0 (waiting ++ p) with ⟨s, _ | u⟩
    · rw [hdec] at hfront hrest
      obtain rfl : rest = [] := hrest
      dsimp only
      rw [append_eq_iff, hbs, List.append_nil, spells_append_iff hfront]
      simp only [ih, List.nil_append]
    · rw [hdec] at hfront hrest
      obtain ⟨-, hrest⟩ := hrest
      dsimp only
      rw [hbs, List.append_assoc, spells_append_iff hfront]
      -- A code point that is cut off waits for the next piece; any other fault stays one.
      split
      · rename_i hr
        rw [if_pos hr] at hrest
        rw [append_eq_iff]
        simp only [ih, hrest]
      · rename_i hr
        rw [if_neg hr] at hrest
        constructor
        · intro h
          cases h
        · rintro ⟨more, -, hmore⟩
          exact absurd hmore (hrest _ more)

theorem pieces_flatten {size n : Nat} {bs : Bytes} (hsize : 0 < size) (hn : bs.length < n) :
    (pieces size n bs).flatten = bs := by
  induction n generalizing bs with
  | zero => omega
  | succ n ih =>
    rw [pieces]
    split
    · rename_i hnil
      rw [List.isEmpty_iff.1 hnil, List.flatten_nil]
    · rename_i hbs
      have hpos : 0 < bs.length := List.length_pos_iff.2 fun h => hbs (List.isEmpty_iff.2 h)
      rw [List.flatten_cons, ih (by rw [List.length_drop]; omega), List.take_append_drop]

end Utf8

end HostTelemetry
