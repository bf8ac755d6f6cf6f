import HostTelemetry.Proofs.Text.Digits
import HostTelemetry.Proofs.Yaml.Cursor
import HostTelemetry.Yaml.Tag

/-!
# Faults of what is read

What a reader refuses is no part of a document, unless the fault behind the text is met, or a number
is too large: that of a code point in an escape, or a part of the version in a directive.
-/

set_option autoImplicit false

namespace HostTelemetry.Yaml

open Cursor

/-- A number in a text that is too large: of an escape with eight digits, or of a version. -/
inductive TooLarge (t : Text) : Fault → Prop
  | escape {ds vs : List Nat} {f : Fault} (run : 92 :: cp 'U' :: ds <:+: t)
      (digits : ds.mapM CodePoint.hexValue? = some vs) (eight : vs.length = 8)
      (refused : charOf (Digits.value 16 vs) = .error f) : TooLarge t f
  | version {ds : Text} (run : ds <:+: t) (all : ∀ c ∈ ds, c.isDigit) (many : 4300 < ds.length) :
      TooLarge t (.numeral ds.length)

def Halts (d : Cursor) (f : Fault) : Prop := f = .yaml ∨ d.fault = some f ∨ TooLarge d.rest f

theorem Cursor.Follows.blame {c d : Cursor} {f : Fault} (h : c.Follows d) (k : Nat)
    (hf : Halts d f) : Halts d (c.blame k f) := by
  rw [Cursor.blame]
  split
  · rw [h.fault]
    rcases hfault : d.fault with _ | g
    · exact hf
    · exact Or.inr (Or.inl hfault)
  · exact hf

/-- What comes of reading on from a place: a place that follows, or a fault. -/
def Reads {α : Type} (left : α → Cursor) (d : Cursor) : Except Fault α → Prop
  | .ok a => (left a).Follows d
  | .error f => Halts d f

section

variable {α β : Type} {left : α → Cursor} {c d : Cursor} {x : Except Fault α}

theorem Reads.yaml : Reads left d (.error .yaml) := Or.inl rfl

theorem Reads.blamed (h : c.Follows d) (k : Nat) : Reads left d (.error (c.blame k .yaml)) :=
  h.blame k (Or.inl rfl)

theorem Reads.bind {left' : β → Cursor} {k : α → Except Fault β} (h : Reads left d x)
    (hk : ∀ a, (left a).Follows d → Reads left' d (k a)) : Reads left' d (x >>= k) := by
  rcases x with f | a
  · exact h
  · exact hk a h

theorem Reads.ite {p : Prop} [Decidable p] {y : Except Fault α} (hx : Reads left d x)
    (hy : Reads left d y) : Reads left d (if p then x else y) := by
  split
  · exact hx
  · exact hy

end

abbrev after {α : Type} (p : α × Cursor) : Cursor := p.2

section

variable {c d : Cursor}

theorem restOfLine_reads (h : c.Follows d) : Reads id d c.restOfLine := by
  have hspace := (c.skip_follows (· = 32)).trans h
  have hcomment := (skip_follows (fun x => !isBreakOrEnd x) _).trans hspace
  rw [restOfLine]
  split
  · split
    · exact (lineBreak_follows _).trans hcomment
    · exact .yaml
  · split
    · exact (lineBreak_follows _).trans hspace
    · exact .yaml

theorem readBreaks_reads (n : Nat) (h : c.Follows d) : Reads after d (readBreaks n c) := by
  induction n generalizing c with
  | zero => exact h
  | succ n ih =>
    have hskip := (c.skip_follows fun x => x = 32 || x = 9).trans h
    rw [readBreaks]
    split
    · exact .blamed h 3
    · dsimp only
      split
      · exact (ih ((lineBreak_follows _).trans hskip)).bind fun p hp => hp
      · exact hskip

theorem charOf_error {n : Nat} {f : Fault} (h : charOf n = .error f) :
    0x110000 ≤ n ∧ (f = .notACodePoint ∨ f = .tooLargeForWord) := by
  unfold charOf at h
  split at h
  · cases h
  · rename_i hn
    refine ⟨Nat.not_lt.1 hn, ?_⟩
    split at h
    · cases h
      exact Or.inl rfl
    · cases h
      exact Or.inr rfl

theorem hexValue?_lt {c v : Nat} (h : CodePoint.hexValue? c = some v) : v < 16 := by
  have hc : (if decide (48 ≤ c) && decide (c ≤ 57) then some (c - 48)
      else if decide (97 ≤ c) && decide (c ≤ 102) then some (c - 97 + 10)
      else if decide (65 ≤ c) && decide (c ≤ 70) then some (c - 65 + 10) else none) = some v := h
  simp only [Bool.and_eq_true, decide_eq_true_eq] at hc
  split at hc
  · cases hc
    omega
  · split at hc
    · cases hc
      omega
    · split at hc
      · cases hc
        omega
      · cases hc

theorem hexValues_lt {ds vs : List Nat} (h : ds.mapM CodePoint.hexValue? = some vs) :
    ∀ v ∈ vs, v < 16 := by
  induction ds generalizing vs with
  | nil =>
    cases h
    exact fun v hv => absurd hv List.not_mem_nil
  | cons d ds ih =>
    rw [List.mapM_cons] at h
    obtain ⟨v, hv, h⟩ := Option.bind_eq_some_iff.1 h
    obtain ⟨ws, hws, h⟩ := Option.bind_eq_some_iff.1 h
    cases h
    exact List.forall_mem_cons.2 ⟨hexValue?_lt hv, ih hws⟩

theorem digitEscapes_cases {x : CodePoint} {n : Nat} (h : findEscape x digitEscapes = some n) :
    n ≤ 4 ∨ n = 8 ∧ x = cp 'U' := by
  obtain ⟨e, he, rfl⟩ := Option.map_eq_some_iff.1 h
  have hx : e.1 = x := by simpa using List.find?_some he
  have hmem := List.mem_of_find?_eq_some he
  simp only [digitEscapes, List.mem_cons, List.not_mem_nil, or_false] at hmem
  obtain rfl | rfl | rfl := hmem
  · exact Or.inl (by decide)
  · exact Or.inl (by decide)
  · exact Or.inr ⟨rfl, hx.symm⟩

/-- Only an escape with eight digits can be a number that is no code point. -/
theorem readEscape_reads (hc : c.Follows d) (hslash : 92 :: c.rest <:+ d.rest) :
    Reads after d (readEscape c) := by
  have hnext := c.next_follows.trans hc
  rw [readEscape]
  dsimp only
  split
  · exact hnext
  · rename_i n hsimple hn
    split
    · rename_i vs hvs
      split
      · rename_i hlength
        rcases hchar : charOf (Digits.value 16 vs) with f | e
        · obtain ⟨hlarge, -⟩ := charOf_error hchar
          have hlt := Digits.value_lt vs (hexValues_lt hvs)
          rw [hlength] at hlt
          obtain hn | ⟨rfl, hx⟩ := digitEscapes_cases hn
          · have := Nat.pow_le_pow_right (show 0 < 16 by decide) hn
            omega
          · have hrun : 92 :: cp 'U' :: (c.rest.drop 1).take 8 <:+: d.rest := by
              rw [rest_of_peek hx (by decide)] at hslash ⊢
              exact (List.IsPrefix.isInfix ⟨c.next.rest.drop 8, by simp⟩).trans hslash.isInfix
            exact Or.inr (Or.inr (.escape hrun hvs hlength hchar))
        · exact (c.advance_follows (n + 1)).trans hc
      · exact .blamed hc n
    · exact .yaml
  · split
    · exact readBreaks_reads _ ((lineBreak_follows c).trans hc)
    · exact .blamed hc 0

theorem readWords_reads (double : Bool) (n : Nat) (h : c.Follows d) :
    Reads after d (readWords double n c) := by
  induction n generalizing c with
  | zero => exact h
  | succ n ih =>
    have hrun := (c.run_follows isQuotedPart).trans h
    rw [readWords]
    dsimp only
    split
    · exact (ih ((advance_follows 2 _).trans hrun)).bind fun p hp => hp
    · split
      · exact (ih ((next_follows _).trans hrun)).bind fun p hp => hp
      · split
        · rename_i hx
          have hslash : (c.run isQuotedPart).2.peek 0 = 92 := by simp_all
          have hrest := hrun.rest
          rw [rest_of_peek hslash (by decide)] at hrest
          apply (readEscape_reads ((next_follows _).trans hrun) hrest).bind
          intro e he
          exact (ih he).bind fun p hp => hp
        · exact hrun

theorem readSpaces_reads (h : c.Follows d) : Reads after d (readSpaces c) := by
  have hrun := (c.run_follows fun x => x = 32 || x = 9).trans h
  rw [readSpaces]
  dsimp only
  split
  · exact .blamed hrun 0
  · split
    · exact (readBreaks_reads _ ((lineBreak_follows _).trans hrun)).bind fun p hp => hp
    · exact hrun

theorem readQuotedRest_reads (double : Bool) (quote : CodePoint) (n : Nat) (h : c.Follows d) :
    Reads after d (readQuotedRest double quote n c) := by
  induction n generalizing c with
  | zero => exact .yaml
  | succ n ih =>
    rw [readQuotedRest]
    split
    · exact c.next_follows.trans h
    · apply (readSpaces_reads h).bind
      intro s hs
      apply (readWords_reads double _ hs).bind
      intro w hw
      exact (ih hw).bind fun p hp => hp

theorem readQuoted_reads (h : c.Follows d) : Reads after d (readQuoted c) := by
  apply (readWords_reads _ _ (c.next_follows.trans h)).bind
  intro w hw
  exact (readQuotedRest_reads _ _ _ hw).bind fun p hp => hp

theorem readIncrement_reads (h : c.Follows d) : Reads after d (readIncrement c) := by
  rw [readIncrement]
  split
  · split
    · exact .yaml
    · exact c.next_follows.trans h
  · exact h

theorem readIndicators_reads (h : c.Follows d) :
    Reads (fun p => p.2.2) d (readIndicators c) := by
  have hend : ∀ p : Chomp × Option Nat × Cursor, p.2.2.Follows d →
      Reads (fun p => p.2.2) d
        (if isSpaceOrEnd (p.2.2.peek 0) then pure (p.1, p.2.1, p.2.2) else .error .yaml) := by
    intro p hp
    split
    · exact hp
    · exact .yaml
  rw [readIndicators]
  split
  · apply (readIncrement_reads (c.next_follows.trans h)).bind
    intro p hp
    exact hend (_, _, _) hp
  · apply (readIncrement_reads h).bind
    intro p hp
    dsimp only
    split
    · exact hend (_, _, _) ((next_follows _).trans hp)
    · exact hend (_, _, _) hp

theorem readBlock_reads (indent : Int) (h : c.Follows d) : Reads after d (readBlock indent c) := by
  apply (readIndicators_reads (c.next_follows.trans h)).bind
  rintro ⟨chomp, increment, e⟩ he
  apply (restOfLine_reads he).bind
  intro d hd
  rcases increment with _ | i
  · have hindent := (readIndentation_follows (d.rest.length + 1) 0 d).trans hd
    dsimp only
    split
    · exact (readLines_follows _ _ _ _).trans hindent
    · exact hindent
  · have hempty := (readEmptyLines_follows ((max 1 (indent + 1)).toNat + i - 1)
      (d.rest.length + 1) d).trans hd
    dsimp only
    split
    · exact (readLines_follows _ _ _ _).trans hempty
    · exact hempty

theorem readAnchor_reads (h : c.Follows d) : Reads after d (readAnchor c) := by
  have hname := (run_follows isWordPart _).trans (c.next_follows.trans h)
  rw [readAnchor]
  dsimp only
  split
  · exact .blamed hname 0
  · split
    · exact hname
    · exact .yaml

theorem readHandle_reads (h : c.Follows d) : Reads after d (readHandle c) := by
  have hnext := c.next_follows.trans h
  rw [readHandle]
  split
  · exact .blamed h 0
  · split
    · exact hnext
    · have hword := (run_follows isWordPart _).trans hnext
      dsimp only
      split
      · exact (next_follows _).trans hword
      · exact .blamed hword 0

theorem readPercents_reads (n : Nat) (h : c.Follows d) : Reads after d (readPercents n c) := by
  induction n generalizing c with
  | zero => exact h
  | succ n ih =>
    rw [readPercents]
    split
    · split
      · exact (ih ((c.advance_follows 3).trans h)).bind fun p hp => hp
      · exact .blamed h 2
      · exact .yaml
    · exact h

theorem readSuffixFrom_reads (n : Nat) (h : c.Follows d) : Reads after d (readSuffixFrom n c) := by
  induction n generalizing c with
  | zero => exact h
  | succ n ih =>
    have hpart := (c.run_follows isTagPart).trans h
    rw [readSuffixFrom]
    dsimp only
    split
    · apply (readPercents_reads _ hpart).bind
      intro p hp
      split
      · exact .yaml
      · exact (ih hp).bind fun q hq => hq
    · exact hpart

theorem readSuffix_reads (h : c.Follows d) : Reads after d (readSuffix c) := by
  apply (readSuffixFrom_reads _ h).bind
  intro p hp
  dsimp only
  split
  · exact .blamed hp 0
  · exact hp

theorem readTag_reads (h : c.Follows d) : Reads after d (readTag c) := by
  have hend : ∀ p : WrittenTag × Cursor, p.2.Follows d →
      Reads after d (if isSpaceOrEnd (p.2.peek 0) then pure (p.1, p.2) else .error .yaml) := by
    intro p hp
    split
    · exact hp
    · exact .yaml
  have hsuffix : ∀ p : Text × Cursor, p.2.Follows d → Reads after d (do
      let q ← readSuffix p.2
      if isSpaceOrEnd (q.2.peek 0) then pure (WrittenTag.mk (some p.1) q.1, q.2)
      else .error .yaml) := by
    intro p hp
    exact (readSuffix_reads hp).bind fun q hq => hend (WrittenTag.mk (some p.1) q.1, q.2) hq
  rw [readTag]
  dsimp only
  split
  · apply (readSuffix_reads ((c.advance_follows 2).trans h)).bind
    intro p hp
    split
    · exact hend (_, _) ((next_follows _).trans hp)
    · exact .blamed hp 0
  · split
    · exact hend (_, _) (c.next_follows.trans h)
    · split
      · exact (readHandle_reads h).bind hsuffix
      · exact hsuffix (_, _) (c.next_follows.trans h)

theorem readVersionPart_reads (h : c.Follows d) : Reads after d (readVersionPart c) := by
  have hrun := (c.run_follows CodePoint.isDigit).trans h
  rw [readVersionPart]
  dsimp only
  split
  · exact .blamed hrun 0
  · split
    · rename_i hmany
      exact hrun.blame 0 (Or.inr (Or.inr (.version
        ((List.takeWhile_prefix _).isInfix.trans h.rest.isInfix)
        (fun d hd => List.mem_takeWhile_imp hd) hmany)))
    · exact hrun

theorem readVersion_reads (h : c.Follows d) : Reads after d (readVersion c) := by
  apply (readVersionPart_reads ((c.skip_follows (· = 32)).trans h)).bind
  intro p hp
  dsimp only
  split
  · exact .blamed hp 0
  · apply (readVersionPart_reads ((next_follows _).trans hp)).bind
    intro q hq
    split
    · exact hq
    · exact .yaml

theorem readHandleMeaning_reads (h : c.Follows d) : Reads after d (readHandleMeaning c) := by
  apply (readHandle_reads ((c.skip_follows (· = 32)).trans h)).bind
  intro p hp
  dsimp only
  split
  · exact .blamed hp 0
  · apply (readSuffix_reads ((skip_follows (· = 32) _).trans hp)).bind
    intro q hq
    split
    · exact hq
    · exact .yaml

theorem readDirective_reads (h : c.Follows d) : Reads after d (readDirective c) := by
  have hname := (run_follows isWordPart _).trans (c.next_follows.trans h)
  have hend : ∀ p : Directive × Cursor, p.2.Follows d → Reads after d (do
      let d ← p.2.restOfLine
      pure (p.1, d)) :=
    fun p hp => (restOfLine_reads hp).bind fun d hd => hd
  rw [readDirective]
  dsimp only
  split
  · exact .blamed hname 0
  · split
    · exact (readVersion_reads hname).bind hend
    · split
      · exact (readHandleMeaning_reads hname).bind hend
      · exact hend (_, _) ((skip_follows _ _).trans hname)

end

end HostTelemetry.Yaml
