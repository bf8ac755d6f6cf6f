import HostTelemetry.Proofs.Outcome
import HostTelemetry.Proofs.Yaml.Reading
import HostTelemetry.Yaml.Lexer

/-!
# Faults of the lexer

The lexer goes through its text from the beginning to the end. It stops early at what is no part of
a document, at the fault behind the text, or at a number that is too large.
-/

set_option autoImplicit false

namespace HostTelemetry.Yaml

namespace Lexer

section

variable {d : Cursor} {l : Lexer}

theorem dropKey_reads (h : l.cursor.Follows d) : Reads cursor d l.dropKey := by
  rw [dropKey]
  split
  · split
    · exact .yaml
    · exact h
  · exact h

theorem dropStale_reads (h : l.cursor.Follows d) : Reads cursor d l.dropStale := by
  rw [dropStale]
  split
  · exact .yaml
  · exact h

theorem saveKey_reads (h : l.cursor.Follows d) : Reads cursor d l.saveKey := by
  rw [saveKey]
  split
  · exact (dropKey_reads h).bind fun m hm => hm
  · exact h

theorem unwind_cursor (column : Int) (n : Nat) (l : Lexer) :
    (unwind column n l).cursor = l.cursor := by
  induction n generalizing l with
  | zero => rfl
  | succ n ih =>
    rw [unwind]
    split
    · exact ih _
    · rfl

theorem unwindTo_cursor (column : Int) (l : Lexer) : (l.unwindTo column).cursor = l.cursor :=
  unwind_cursor column _ l

theorem deepen_cursor (column : Nat) (l : Lexer) : (l.deepen column).2.cursor = l.cursor := by
  rw [deepen]
  split <;> rfl

theorem move_cursor (n : Nat) (h : l.cursor.Follows d) : (l.move n).cursor.Follows d :=
  (l.cursor.advance_follows n).trans h

theorem skipGaps_cursor (n : Nat) (h : l.cursor.Follows d) : (l.skipGaps n).cursor.Follows d := by
  induction n generalizing l with
  | zero => exact h
  | succ n ih =>
    have hspace := (Cursor.skip_follows (· = 32) l.cursor).trans h
    have hcomment := (Cursor.skip_follows (fun x => !isBreakOrEnd x) _).trans hspace
    rw [skipGaps]
    split
    · split
      · exact ih ((Cursor.lineBreak_follows _).trans hcomment)
      · exact hcomment
    · split
      · exact ih ((Cursor.lineBreak_follows _).trans hspace)
      · exact hspace

theorem skipToToken_cursor (h : l.cursor.Follows d) : l.skipToToken.cursor.Follows d := by
  rw [skipToToken]
  split
  · exact skipGaps_cursor _ (move_cursor 1 h)
  · exact skipGaps_cursor _ h

theorem reset_reads (h : l.cursor.Follows d) : Reads cursor d l.reset :=
  (dropKey_reads ((unwindTo_cursor (-1) l).symm ▸ h)).bind fun _ hm => hm

theorem fetchEnd_reads (h : l.cursor.Follows d) : Reads cursor d l.fetchEnd :=
  (reset_reads h).bind fun _ hm => hm

theorem fetchDirective_reads (h : l.cursor.Follows d) : Reads cursor d l.fetchDirective :=
  (reset_reads h).bind fun _ hm => (readDirective_reads hm).bind fun _ hp => hp

theorem fetchMarker_reads (k : Token) (h : l.cursor.Follows d) : Reads cursor d (l.fetchMarker k) :=
  (reset_reads h).bind fun _ hm => move_cursor 3 hm

theorem fetchFlowStart_reads (k : Token) (h : l.cursor.Follows d) :
    Reads cursor d (l.fetchFlowStart k) :=
  (saveKey_reads h).bind fun m hm =>
    move_cursor (l := { m with flow := m.flow + 1, keyAllowed := true }) 1 hm

theorem fetchFlowEnd_reads (k : Token) (h : l.cursor.Follows d) :
    Reads cursor d (l.fetchFlowEnd k) :=
  (dropKey_reads h).bind fun m hm =>
    move_cursor (l := { m with flow := m.flow - 1, keyAllowed := false }) 1 hm

theorem fetchFlowEntry_reads (h : l.cursor.Follows d) : Reads cursor d l.fetchFlowEntry :=
  (dropKey_reads h).bind fun m hm => move_cursor (l := { m with keyAllowed := true }) 1 hm

theorem beginHere_reads (k : Token) (h : l.cursor.Follows d) : Reads cursor d (l.beginHere k) := by
  have hdeeper : (l.deepen l.cursor.column).2.cursor.Follows d := by
    rw [deepen_cursor]
    exact h
  rw [beginHere]
  split
  · exact h
  · split
    · exact .yaml
    · split
      · rename_i m hm
        rw [hm] at hdeeper
        exact hdeeper
      · rename_i m hm
        rw [hm] at hdeeper
        exact hdeeper

theorem fetchBlockEntry_reads (h : l.cursor.Follows d) : Reads cursor d l.fetchBlockEntry :=
  (beginHere_reads .blockSequence h).bind fun m hm =>
    (dropKey_reads (l := { m with keyAllowed := true }) hm).bind fun _ hk => move_cursor 1 hk

theorem fetchKey_reads (h : l.cursor.Follows d) : Reads cursor d l.fetchKey :=
  (beginHere_reads .blockMapping h).bind fun m hm =>
    (dropKey_reads (l := { m with keyAllowed := m.flow = 0 }) hm).bind fun _ hk => move_cursor 1 hk

theorem insertKey_cursor (k : MaybeKey) (l : Lexer) : (l.insertKey k).cursor = l.cursor := by
  rw [insertKey]
  dsimp only
  split
  · exact deepen_cursor k.column l.withoutKey
  · rfl

theorem fetchValue_reads (h : l.cursor.Follows d) : Reads cursor d l.fetchValue := by
  rw [fetchValue]
  split
  · rename_i k hk
    have hkey : (l.insertKey k).cursor.Follows d := by
      rw [insertKey_cursor]
      exact h
    exact move_cursor 1 hkey
  · exact (beginHere_reads .blockMapping h).bind fun m hm =>
      (dropKey_reads (l := { m with keyAllowed := m.flow = 0 }) hm).bind fun _ hk =>
        move_cursor 1 hk

theorem fetchSimple_reads {read : Cursor → Except Fault (Token × Cursor)}
    (hread : ∀ c : Cursor, c.Follows d → Reads after d (read c)) (h : l.cursor.Follows d) :
    Reads cursor d (l.fetchSimple read) :=
  (saveKey_reads h).bind fun m hm => (hread m.cursor hm).bind fun _ hp => hp

theorem wrap_reads {α : Type} (f : α → Token) {r : Except Fault (α × Cursor)}
    (h : Reads after d r) : Reads after d (wrap f r) := by
  rcases r with g | p
  · exact h
  · exact h

theorem fetchPlain_reads (h : l.cursor.Follows d) : Reads cursor d l.fetchPlain :=
  (saveKey_reads h).bind fun m hm =>
    (readPlain_follows (m.flow ≠ 0) (m.indent + 1) m.cursor).trans hm

theorem fetchBlock_reads (h : l.cursor.Follows d) : Reads cursor d l.fetchBlock :=
  (dropKey_reads (l := { l with keyAllowed := true }) h).bind fun _ hm =>
    (readBlock_reads _ hm).bind fun _ hp => hp

theorem fetchHere_reads (h : l.cursor.Follows d) : Reads cursor d l.fetchHere := by
  rw [fetchHere]
  refine .ite (fetchDirective_reads h) ?_
  refine .ite (fetchMarker_reads _ h) (.ite (fetchMarker_reads _ h) ?_)
  refine .ite (fetchFlowStart_reads _ h) (.ite (fetchFlowStart_reads _ h) ?_)
  refine .ite (fetchFlowEnd_reads _ h) (.ite (fetchFlowEnd_reads _ h) ?_)
  refine .ite (fetchFlowEntry_reads h) ?_
  refine .ite (fetchBlockEntry_reads h) ?_
  refine .ite (fetchKey_reads h) (.ite (fetchValue_reads h) ?_)
  refine .ite (fetchSimple_reads (fun c hc => wrap_reads _ (readAnchor_reads hc)) h) ?_
  refine .ite (fetchSimple_reads (fun c hc => wrap_reads _ (readAnchor_reads hc)) h) ?_
  refine .ite (fetchSimple_reads (fun c hc => wrap_reads _ (readTag_reads hc)) h) ?_
  refine .ite (fetchBlock_reads h) ?_
  refine .ite (fetchSimple_reads (fun c hc => wrap_reads _ (readQuoted_reads hc)) h) ?_
  exact .ite (fetchPlain_reads h) .yaml

theorem goOn_reads (h : l.cursor.Follows d) : Reads cursor d l.goOn := by
  rw [goOn]
  split
  · rename_i f _ hfault
    exact Or.inr (Or.inl (h.fault ▸ hfault))
  · exact h

theorem toNext_reads (h : l.cursor.Follows d) : Reads cursor d l.toNext := by
  apply (dropStale_reads h).bind
  intro m hm
  apply (goOn_reads (skipToToken_cursor hm)).bind
  intro m hm
  apply (dropStale_reads hm).bind
  intro m hm
  show (m.unwindTo m.cursor.column).cursor.Follows d
  rw [unwindTo_cursor]
  exact hm

theorem fetch_reads (h : l.cursor.Follows d) : Reads (fun p => p.2.cursor) d l.fetch := by
  apply (toNext_reads h).bind
  intro m hm
  refine .ite ((fetchEnd_reads hm).bind fun _ hp => hp) ?_
  apply (fetchHere_reads hm).bind
  intro k hk
  exact (goOn_reads hk).bind fun _ hp => hp

theorem toNext_end {m : Lexer} (h : l.toNext = .ok m) (hend : m.cursor.rest = []) :
    m.cursor.fault = none := by
  obtain ⟨l₁, -, h⟩ := bind_eq_ok h
  obtain ⟨l₂, hgoOn, h⟩ := bind_eq_ok h
  obtain ⟨l₃, hstale, h⟩ := bind_eq_ok h
  cases h
  rw [unwindTo_cursor] at hend ⊢
  have hcursor : l₃.cursor = l₂.cursor := by
    rw [dropStale] at hstale
    split at hstale <;> cases hstale
    rfl
  rw [hcursor] at hend ⊢
  rw [goOn] at hgoOn
  split at hgoOn
  · cases hgoOn
  · rename_i hnone
    cases hgoOn
    rcases hfault : l₁.skipToToken.cursor.fault with _ | f
    · rfl
    · exact absurd hfault (hnone f hend)

theorem fetch_end {m : Lexer} (h : l.fetch = .ok (true, m)) : l.cursor.fault = none := by
  have hreads := toNext_reads (.refl l.cursor)
  obtain ⟨k, hnext, h⟩ := bind_eq_ok h
  rw [hnext] at hreads
  split at h
  · rename_i hend
    rw [← hreads.fault]
    exact toNext_end hnext (List.isEmpty_iff.1 hend)
  · obtain ⟨m₁, -, h⟩ := bind_eq_ok h
    obtain ⟨m₂, -, h⟩ := bind_eq_ok h
    cases h

theorem scan_fault {n : Nat} {f : Fault} (h : l.cursor.Follows d) (hf : (scan n l).2 = some f) :
    Halts d f := by
  induction n generalizing l with
  | zero =>
    cases hf
    exact Or.inl rfl
  | succ n ih =>
    have hfetch := fetch_reads h
    rw [scan] at hf
    split at hf
    · rename_i g hg
      rw [hg] at hfetch
      cases hf
      exact hfetch
    · cases hf
    · rename_i m hm
      rw [hm] at hfetch
      exact ih hfetch hf

theorem scan_whole {n : Nat} (h : (scan n l).2 = none) : l.cursor.fault = none := by
  induction n generalizing l with
  | zero => cases h
  | succ n ih =>
    have hfetch := fetch_reads (.refl l.cursor)
    rw [scan] at h
    split at h
    · cases h
    · rename_i m hm
      exact fetch_end hm
    · rename_i m hm
      rw [hm] at hfetch
      rw [← hfetch.fault]
      exact ih h

end

end Lexer

/-- The tokens of a text end early where it is no document, at the fault behind it, or at a number
that is too large. -/
theorem tokens_fault {t : Text} {fault : Option Fault} {f : Fault}
    (h : (tokens t fault).2 = some f) : f = .yaml ∨ fault = some f ∨ TooLarge t f :=
  Lexer.scan_fault (l := Lexer.ofText t fault) (.refl _) h

end HostTelemetry.Yaml
