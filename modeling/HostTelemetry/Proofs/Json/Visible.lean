import HostTelemetry.Proofs.Json.Number
import HostTelemetry.Proofs.Text.Ascii

/-!
# What the text of a JSON value is made of

Whatever a value holds, its text has only code points from the space to the tilde: control
characters, line ends and everything beyond ASCII are escaped.
-/

set_option autoImplicit false

namespace HostTelemetry.Json

open Text (digit Within within_nil within_of_all digits_within padded_within)

theorem digit_visible {d : Nat} (h : d < 16) : 32 ≤ digit d ∧ digit d ≤ 126 := by
  interval_cases d <;> decide

theorem hex_visible (w n : Nat) : Within 32 126 (Text.hex w n) := by
  induction w generalizing n with
  | zero => exact within_nil 32 126
  | succ w ih =>
    rw [Text.hex]
    apply (ih (n / 16)).append
    exact (within_nil 32 126).cons (digit_visible (Nat.mod_lt n (by decide)))

theorem unit_visible (u : Nat) : Within 32 126 (unit u) :=
  Within.append (within_of_all (by decide)) (hex_visible 4 u)

theorem escape_visible (c : CodePoint) : Within 32 126 (escape c) := by
  have hpair : ∀ d : Nat, 32 ≤ d ∧ d ≤ 126 → Within 32 126 [92, d] := by
    intro d hd
    exact ((within_nil 32 126).cons hd).cons (by decide)
  have hself : 32 ≤ c ∧ c < 127 → Within 32 126 [c] := by
    intro hc
    exact (within_nil 32 126).cons ⟨hc.1, Nat.le_of_lt_succ hc.2⟩
  unfold escape
  split_ifs with _ _ _ _ _ _ _ hplain
  case pos => exact hpair 34 (by decide)
  case pos => exact hpair 92 (by decide)
  case pos => exact hpair 110 (by decide)
  case pos => exact hpair 114 (by decide)
  case pos => exact hpair 116 (by decide)
  case pos => exact hpair 102 (by decide)
  case pos => exact hpair 98 (by decide)
  case pos => exact hself hplain
  case pos => exact unit_visible c
  case neg => exact (unit_visible _).append (unit_visible _)

theorem string_visible (t : Text) : Within 32 126 (string t) := by
  have hbody : Within 32 126 (t.flatMap escape) := by
    intro c hc
    obtain ⟨d, -, hd⟩ := List.mem_flatMap.1 hc
    exact escape_visible d c hd
  exact (Within.cons (by decide) hbody).append ((within_nil 32 126).cons (by decide))

theorem ofNat_visible (n : Nat) : Within 32 126 (Text.ofNat n) :=
  digits_within (Digits.ofNat_lt n) (by decide) (by decide)

theorem ofInt_visible (n : Int) : Within 32 126 (Text.ofInt n) := by
  cases n with
  | ofNat n => exact ofNat_visible n
  | negSucc n => exact Within.cons (by decide) (ofNat_visible (n + 1))

theorem double_visible (x : Double) : Within 32 126 (x.render numberFormat) := by
  have hminus : ∀ b, Within 32 126 (minus b) := by
    intro b
    cases b with
    | true => exact within_of_all (by decide)
    | false => exact within_nil 32 126
  have hpointed : ∀ ds : List Nat, (∀ d ∈ ds, d < 10) → Within 32 126 (pointed ds) := by
    intro ds hds
    rw [pointed]
    split
    · exact within_nil 32 126
    · exact Within.cons (by decide) (digits_within hds (by decide) (by decide))
  have hexponent : ∀ e, Within 32 126 (exponentPart e) := by
    intro e
    cases e with
    | none => exact within_nil 32 126
    | some e =>
      rw [exponentPart, Decimal.exponentText]
      apply Within.append _ (padded_within 2 _ (by decide) (by decide))
      split
      · exact within_of_all (by decide)
      · exact within_of_all (by decide)
  by_cases hx : x.isFinite
  · obtain ⟨negative, whole, fraction, e, numeral⟩ := render_numeral hx
    rw [numeral.text_eq]
    exact (hminus negative).append ((digits_within numeral.whole_lt (by decide) (by decide)).append
      ((hpointed fraction numeral.fraction_lt).append (hexponent e)))
  · cases x with
    | nan => exact within_of_all (by decide)
    | infinite b => cases b <;> exact within_of_all (by decide)
    | finite b u h => exact absurd rfl hx

theorem join_within {low high : Nat} {sep : Text} (hsep : Within low high sep) (ts : List Text)
    (h : ∀ t ∈ ts, Within low high t) : Within low high (Text.join sep ts) := by
  induction ts with
  | nil => exact within_nil low high
  | cons t ts ih =>
    have ht := h t (List.mem_cons_self ..)
    have hts := ih fun u hu => h u (List.mem_cons_of_mem _ hu)
    cases ts with
    | nil => exact ht
    | cons u ts => exact (ht.append hsep).append hts

structure Layout.Visible (l : Layout) : Prop where
  item : Within 32 126 l.item
  key : Within 32 126 l.key

theorem dense_visible : dense.Visible := ⟨within_of_all (by decide), within_of_all (by decide)⟩

theorem spaced_visible : spaced.Visible := ⟨within_of_all (by decide), within_of_all (by decide)⟩

mutual

theorem render_visible {l : Layout} (h : l.Visible) : ∀ v : Json, Within 32 126 (render l v)
  | .null => by
    rw [render]
    exact within_of_all (by decide)
  | .bool b => by
    rw [render]
    cases b <;> exact within_of_all (by decide)
  | .int n => by
    rw [render]
    exact ofInt_visible n
  | .double x => by
    rw [render]
    exact double_visible x
  | .text t => by
    rw [render]
    exact string_visible t
  | .array xs => by
    rw [render]
    have hbody := join_within h.item _ (renderAll_visible h xs)
    exact (Within.cons (by decide) hbody).append (within_of_all (by decide))
  | .object kvs => by
    rw [render]
    have hbody := join_within h.item _ (renderMembers_visible h kvs)
    exact (Within.cons (by decide) hbody).append (within_of_all (by decide))

theorem renderAll_visible {l : Layout} (h : l.Visible) :
    ∀ xs : List Json, ∀ t ∈ renderAll l xs, Within 32 126 t
  | [] => by
    rw [renderAll]
    intro t ht
    cases ht
  | x :: xs => by
    rw [renderAll]
    intro t ht
    rcases List.mem_cons.1 ht with rfl | ht
    · exact render_visible h x
    · exact renderAll_visible h xs t ht

theorem renderMembers_visible {l : Layout} (h : l.Visible) :
    ∀ kvs : List (Text × Json), ∀ t ∈ renderMembers l kvs, Within 32 126 t
  | [] => by
    rw [renderMembers]
    intro t ht
    cases ht
  | (k, v) :: kvs => by
    rw [renderMembers]
    intro t ht
    rcases List.mem_cons.1 ht with rfl | ht
    · exact ((string_visible k).append h.key).append (render_visible h v)
    · exact renderMembers_visible h kvs t ht

end

end HostTelemetry.Json
