import HostTelemetry.Proofs.Json.Limits
import HostTelemetry.Proofs.Json.Object
import HostTelemetry.Proofs.Outcome

/-!
# Tokens

A value that is no container is read from a token, and what follows the token does not matter as
long as it cannot go on a number. The hard cases are the two that look ahead: a string in which an
escape may be joined to the next one, and a number, which ends where its text stops being one.
-/

set_option autoImplicit false

namespace HostTelemetry.Json

open Text (digit span_append)

theorem hex4?_digits {t : Text} {u : CodePoint} (h : hex4? t = some u) :
    ∃ a b c d more, t = a :: b :: c :: d :: more ∧ 34 ∉ [a, b, c, d] := by
  have hquote : CodePoint.hexValue? 34 = none := by decide
  rcases t with _ | ⟨a, _ | ⟨b, _ | ⟨c, _ | ⟨d, more⟩⟩⟩⟩
  · cases h
  · cases ha : CodePoint.hexValue? a <;> simp [hex4?, ha] at h
  · cases ha : CodePoint.hexValue? a <;> cases hb : CodePoint.hexValue? b <;>
      simp [hex4?, ha, hb] at h
  · cases ha : CodePoint.hexValue? a <;> cases hb : CodePoint.hexValue? b <;>
      cases hc : CodePoint.hexValue? c <;> simp [hex4?, ha, hb, hc] at h
  · refine ⟨a, b, c, d, more, rfl, ?_⟩
    simp only [List.mem_cons, List.not_mem_nil, or_false, not_or]
    refine ⟨?_, ?_, ?_, ?_⟩ <;> rintro rfl <;> simp [hex4?, hquote] at h

theorem joinPair_cases {u e : CodePoint} {t rest : Text} (h : joinPair u t = .ok (e, rest)) :
    e = u ∧ rest = t ∨ ∃ a b c d l, t = 92 :: cp 'u' :: a :: b :: c :: d :: rest ∧ rest ≠ [] ∧
      hex4? [a, b, c, d] = some l ∧ u.IsHighSurrogate ∧ l.IsLowSurrogate ∧
      e = 0x10000 + (u - 0xD800) * 0x400 + (l - 0xDC00) := by
  unfold joinPair at h
  split at h
  · rename_i hmark
    obtain ⟨hhigh, htwo, hrest⟩ := hmark
    split at h
    · cases h
    · rename_i l hl
      split at h
      · rename_i hlow
        obtain ⟨a, b, c, d, more, hmore, -⟩ := hex4?_digits hl
        have ht : t = 92 :: cp 'u' :: a :: b :: c :: d :: more := by
          rw [← List.take_append_drop 2 t, htwo, hmore]
          rfl
        rw [ht] at h hl hrest
        obtain ⟨hcode, hleft⟩ := Prod.mk.inj (Except.ok.inj h)
        obtain rfl : more = rest := hleft
        exact Or.inr ⟨a, b, c, d, l, ht, by simpa using hrest, hl, hhigh, hlow, hcode.symm⟩
      · cases h
        exact Or.inl ⟨rfl, rfl⟩
  · cases h
    exact Or.inl ⟨rfl, rfl⟩

theorem joinPair_unit_eq {u l a b c d : CodePoint} (hhigh : u.IsHighSurrogate)
    (hl : hex4? [a, b, c, d] = some l) {more : Text} (hmore : more ≠ []) :
    joinPair u (92 :: cp 'u' :: a :: b :: c :: d :: more) =
      if l.IsLowSurrogate then .ok (0x10000 + (u - 0xD800) * 0x400 + (l - 0xDC00), more)
      else .ok (u, 92 :: cp 'u' :: a :: b :: c :: d :: more) := by
  have hhex : hex4? (a :: b :: c :: d :: more) = some l := hl
  rw [joinPair, if_pos ⟨hhigh, rfl, by simpa using hmore⟩]
  simp only [List.drop_succ_cons, List.drop_zero, hhex]

/-- An escape reads the same in front of any text that its unit is joined to no more than to the
one it stood in front of. -/
theorem readEscape_used {start t rest : Text} {e : CodePoint}
    (h : readEscape start (92 :: t) = .ok (e, rest)) :
    ∃ used, t = used ++ rest ∧ ∀ start' more, more ≠ [] →
      (∀ u, joinPair u rest = .ok (u, rest) → joinPair u more = .ok (u, more)) →
      readEscape start' (92 :: (used ++ more)) = .ok (e, more) := by
  cases t with
  | nil => cases h
  | cons x t =>
    unfold readEscape at h
    simp only [List.drop_succ_cons, List.drop_zero] at h
    split at h
    · rename_i hx
      split at h
      · cases h
      · split at h
        · cases h
        · rename_i hlong u hu
          obtain ⟨a, b, c, d, more, rfl, -⟩ := hex4?_digits hu
          have hunit : ∀ start' more', more' ≠ [] →
              readEscape start' (92 :: x :: a :: b :: c :: d :: more') = joinPair u more' := by
            intro start' more' hmore'
            have hhex : hex4? (a :: b :: c :: d :: more') = some u := hu
            rw [readEscape]
            simp only [List.drop_succ_cons, List.drop_zero, if_pos hx, hhex]
            rw [if_neg (by simpa using hmore')]
          obtain ⟨rfl, rfl⟩ | ⟨a', b', c', d', l, rfl, -, hl, hhigh, hlow, hcode⟩ :=
            joinPair_cases h
          · refine ⟨[x, a, b, c, d], rfl, fun start' more' hmore' hsame => ?_⟩
            exact (hunit start' more' hmore').trans (hsame _ h)
          · refine ⟨[x, a, b, c, d, 92, cp 'u', a', b', c', d'], rfl, ?_⟩
            intro start' more' hmore' _
            refine (hunit start' _ (List.cons_ne_nil _ _)).trans ?_
            rw [hcode]
            exact (joinPair_unit_eq hhigh hl hmore').trans (if_pos hlow)
    · rename_i hx
      split at h
      · rename_i e' he
        cases h
        refine ⟨[x], rfl, fun start' more' _ _ => ?_⟩
        exact readEscape_simple start' he hx more'
      · cases h

theorem readString_closed {start t s rest : Text} {n : Nat}
    (h : readString start n t = .ok (s, rest)) : ∃ body, t = body ++ 34 :: rest := by
  induction n generalizing t s with
  | zero => cases h
  | succ n ih =>
    cases t with
    | nil => cases h
    | cons c t =>
      rw [readString] at h
      split at h
      · rename_i hc
        cases h
        exact ⟨[], by rw [hc]; rfl⟩
      · split at h
        · rename_i hc
          obtain ⟨⟨e, more⟩, he, h⟩ := bind_eq_ok h
          obtain ⟨⟨s', rest'⟩, hs, h⟩ := bind_eq_ok h
          cases h
          rw [hc] at he
          obtain ⟨used, rfl, -⟩ := readEscape_used he
          obtain ⟨body, rfl⟩ := ih hs
          exact ⟨c :: (used ++ body), by simp⟩
        · split at h
          · cases h
          · obtain ⟨⟨s', rest'⟩, hs, h⟩ := bind_eq_ok h
            cases h
            obtain ⟨body, rfl⟩ := ih hs
            exact ⟨c :: body, rfl⟩

theorem hex4?_quote {body r : Text} {l : CodePoint} (h : hex4? (body ++ 34 :: r) = some l) :
    ∃ a b c d more, body = a :: b :: c :: d :: more ∧ hex4? [a, b, c, d] = some l := by
  obtain ⟨a, b, c, d, more, htext, hquote⟩ := hex4?_digits h
  simp only [List.mem_cons, List.not_mem_nil, or_false, not_or] at hquote
  obtain ⟨ha, hb, hc, hd⟩ := hquote
  rcases body with _ | ⟨x, _ | ⟨y, _ | ⟨z, _ | ⟨w, body⟩⟩⟩⟩ <;>
    simp only [List.cons_append, List.nil_append, List.cons.injEq] at htext
  · exact absurd htext.1 ha
  · exact absurd htext.2.1 hb
  · exact absurd htext.2.2.1 hc
  · exact absurd htext.2.2.2.1 hd
  · obtain ⟨rfl, rfl, rfl, rfl, -⟩ := htext
    exact ⟨x, y, z, w, body, rfl, h⟩

theorem readString_unit {start t s rest : Text} {n : Nat}
    (h : readString start n (92 :: cp 'u' :: t) = .ok (s, rest)) : ∃ l, hex4? t = some l := by
  cases n with
  | zero => cases h
  | succ n =>
    rw [readString, if_neg (by decide), if_pos rfl] at h
    obtain ⟨⟨e, more⟩, he, -⟩ := bind_eq_ok h
    unfold readEscape at he
    simp only [List.drop_succ_cons, List.drop_zero, if_true] at he
    split at he
    · cases he
    · split at he
      · cases he
      · rename_i l hl
        exact ⟨l, hl⟩

theorem joinPair_apart {start body r s : Text} {n : Nat}
    (h : readString start n (body ++ 34 :: r) = .ok (s, r)) {u : CodePoint}
    (hu : joinPair u (body ++ 34 :: r) = .ok (u, body ++ 34 :: r)) (r' : Text) :
    joinPair u (body ++ 34 :: r') = .ok (u, body ++ 34 :: r') := by
  by_cases hhigh : u.IsHighSurrogate
  case neg => exact joinPair_single hhigh _
  by_cases hmark : (body ++ 34 :: r').take 2 = lit "\\u"
  case neg => exact joinPair_other u hmark
  obtain ⟨body, rfl⟩ : ∃ more, body = 92 :: cp 'u' :: more := by
    rcases body with _ | ⟨x, _ | ⟨y, more⟩⟩
    · cases hmark
    · cases hmark
    · obtain ⟨rfl, htail⟩ := List.cons.inj hmark
      obtain ⟨rfl, -⟩ := List.cons.inj htail
      exact ⟨more, rfl⟩
  -- The string begins with an escape of its own, whose digits end in front of the quote: what the
  -- unit looks at lies within the string.
  obtain ⟨l, hl⟩ := readString_unit h
  obtain ⟨a, b, c, d, more, rfl, hl⟩ := hex4?_quote hl
  have hlow : ¬l.IsLowSurrogate := by
    intro hlow
    have hjoined := joinPair_unit_eq hhigh hl (List.append_ne_nil_of_right_ne_nil more
      (List.cons_ne_nil 34 r))
    rw [if_pos hlow] at hjoined
    have hsame := (Prod.mk.inj (Except.ok.inj (hu.symm.trans hjoined))).2
    have hlength := congrArg List.length hsame
    simp only [List.cons_append, List.length_append, List.length_cons] at hlength
    omega
  exact (joinPair_unit_eq hhigh hl (List.append_ne_nil_of_right_ne_nil more
    (List.cons_ne_nil 34 r'))).trans (if_neg hlow)

/-- A string is read the same whatever stands behind its quote. -/
theorem readString_used {start body r s : Text} {n : Nat}
    (h : readString start n (body ++ 34 :: r) = .ok (s, r)) (start' r' : Text) {n' : Nat}
    (hn : body.length < n') : readString start' n' (body ++ 34 :: r') = .ok (s, r') := by
  induction n generalizing body s n' with
  | zero => cases h
  | succ n ih =>
    obtain ⟨n', rfl⟩ : ∃ j, n' = j + 1 := ⟨n' - 1, by omega⟩
    cases body with
    | nil =>
      rw [List.nil_append, readString, if_pos rfl] at h ⊢
      cases h
      rfl
    | cons c body =>
      have hshort : body.length < n' := by simpa using hn
      rw [List.cons_append, readString] at h ⊢
      split at h
      · have hlength := congrArg List.length (Prod.mk.inj (Except.ok.inj h)).2
        simp only [List.length_append, List.length_cons] at hlength
        omega
      · rename_i hquote
        rw [if_neg hquote]
        split at h
        · rename_i hslash
          obtain ⟨⟨e, more⟩, he, h⟩ := bind_eq_ok h
          obtain ⟨⟨s', rest⟩, hs, h⟩ := bind_eq_ok h
          cases h
          rw [hslash] at he
          obtain ⟨used, hused, hescape⟩ := readEscape_used he
          obtain ⟨body', rfl⟩ := readString_closed hs
          obtain rfl : body = used ++ body' := by
            rw [← List.append_assoc] at hused
            exact List.append_cancel_right hused
          have he' := hescape start' (body' ++ 34 :: r') (by simp)
            fun u hu => joinPair_apart hs hu r'
          have hbody : body'.length < n' := by
            rw [List.length_append] at hshort
            omega
          rw [if_pos hslash, hslash, List.append_assoc, he']
          simp only [bind, Except.bind, ih hs hbody]
          rfl
        · rename_i hslash
          split at h
          · cases h
          · rename_i hcontrol
            obtain ⟨⟨s', rest⟩, hs, h⟩ := bind_eq_ok h
            cases h
            rw [if_neg hslash, if_neg hcontrol, ih hs hshort]
            rfl

theorem exists_digits {t : Text} (h : ∀ c ∈ t, CodePoint.isDigit c) :
    ∃ ds : List Nat, (∀ d ∈ ds, d < 10) ∧ t = ds.map digit := by
  induction t with
  | nil => exact ⟨[], by simp, rfl⟩
  | cons c t ih =>
    obtain ⟨ds, hds, rfl⟩ := ih fun d hd => h d (List.mem_cons_of_mem _ hd)
    have hc := h c (List.mem_cons_self ..)
    simp only [CodePoint.isDigit, Bool.and_eq_true, decide_eq_true_eq] at hc
    have hlow : 48 ≤ c := hc.1
    have hhigh : c ≤ 57 := hc.2
    have hlt : c - 48 < 10 := Nat.sub_lt_left_of_lt_add hlow (Nat.lt_succ_of_le hhigh)
    refine ⟨(c - 48) :: ds, by simpa using ⟨hlt, hds⟩, ?_⟩
    rw [List.map_cons, Text.digit_range hlt, Nat.add_sub_cancel' hlow]

theorem head?_append_cases {s t : Text} {c : CodePoint} (h : (s ++ t).head? = some c) :
    s.head? = some c ∨ t.head? = some c := by
  rw [List.head?_append, Option.or_eq_some_iff] at h
  exact h.imp_right And.right

def Breaks (t : Text) : Prop := ∀ c, t.head? = some c → CodePoint.isDigit c = false ∧ c ≠ cp '.'

theorem Stops.breaks {t : Text} (h : Stops t) : Breaks t := fun c hc => ⟨(h c hc).1, (h c hc).2.1⟩

theorem wholeOf_used {t w rest : Text} (h : wholeOf t = (w, rest)) (hne : w ≠ []) :
    t = w ++ rest ∧ (∃ d more, d < 10 ∧ w = digit d :: more) ∧
      ∀ more, (∀ c, more.head? = some c → CodePoint.isDigit c = false) →
        wholeOf (w ++ more) = (w, more) := by
  have hspec := wholeOf_spec t
  rw [h] at hspec
  obtain ⟨hsplit, hall⟩ := hspec
  obtain ⟨ds, hds, rfl⟩ := exists_digits hall
  obtain ⟨d, ds, rfl⟩ := List.exists_cons_of_ne_nil (l := ds) (by simpa using hne)
  refine ⟨hsplit.symm, ⟨d, _, hds d (List.mem_cons_self ..), rfl⟩, fun more hmore => ?_⟩
  refine wholeOf_digits hds ?_ hmore
  -- A zero in front stands alone, so nothing was read behind it.
  by_cases hd : d = 0
  case neg => exact Or.inr ⟨d, ds, rfl, hd⟩
  subst hd
  have hdigit : digit 0 = cp '0' := rfl
  rw [← hsplit, List.map_cons, List.cons_append, wholeOf, if_pos hdigit] at h
  have hzero : ds.map digit = [] := (List.cons.inj (Prod.mk.inj h).1).2.symm
  exact Or.inl (by rw [List.map_eq_nil_iff.1 hzero])

theorem fractionOf_used {t f rest : Text} (h : fractionOf t = (f, rest)) :
    ∃ used, t = used ++ rest ∧ (∀ c, used.head? = some c → c = cp '.') ∧
      ∀ more, Breaks more → fractionOf (used ++ more) = (f, more) := by
  have hnone : ([], t) = (f, rest) → ∃ used, t = used ++ rest ∧
      (∀ c, used.head? = some c → c = cp '.') ∧
      ∀ more, Breaks more → fractionOf (used ++ more) = (f, more) := by
    rintro ⟨⟩
    exact ⟨[], rfl, by simp, fun more hmore => @fractionOf_pointed [] more (by simp) hmore⟩
  unfold fractionOf at h
  split at h
  · rename_i c d r
    split at h
    · rename_i hpoint
      obtain ⟨hf, hrest⟩ := Prod.mk.inj h
      have hsplit : c :: d :: r = (cp '.' :: f) ++ rest := by
        rw [← hf, ← hrest, List.cons_append, List.takeWhile_append_dropWhile, hpoint.1]
      obtain ⟨ds, hds, hdigits⟩ := exists_digits (t := f) (by
        rw [← hf]
        exact fun x hx => List.mem_takeWhile_imp hx)
      have hne : ds ≠ [] := by
        rintro rfl
        rw [hdigits, List.takeWhile_cons_of_pos hpoint.2] at hf
        cases hf
      have htext : cp '.' :: f = pointed ds := by
        rw [pointed, if_neg (by simpa using hne), hdigits]
      refine ⟨cp '.' :: f, hsplit, by simp, fun more hmore => ?_⟩
      rw [htext, hdigits]
      exact fractionOf_pointed hds hmore
    · exact hnone h
  · exact hnone h

theorem signed_used {t rest : Text} {negative : Bool} (h : Text.signed t = (negative, rest)) :
    ∃ sign, t = sign ++ rest ∧ ∀ more : Text,
      (∀ c, more.head? = some c → c ≠ cp '-' ∧ c ≠ cp '+') →
        Text.signed (sign ++ more) = (negative, more) := by
  have hnone : (false, t) = (negative, rest) → ∃ sign, t = sign ++ rest ∧ ∀ more : Text,
      (∀ c, more.head? = some c → c ≠ cp '-' ∧ c ≠ cp '+') →
        Text.signed (sign ++ more) = (negative, more) := by
    rintro ⟨⟩
    refine ⟨[], rfl, fun more hmore => ?_⟩
    cases more with
    | nil => rfl
    | cons c more =>
      obtain ⟨hminus, hplus⟩ := hmore c rfl
      rw [List.nil_append, Text.signed, if_neg hminus, if_neg hplus]
  cases t with
  | nil => exact hnone h
  | cons c t =>
    rw [Text.signed] at h
    split at h
    · rename_i hc
      cases h
      exact ⟨[cp '-'], by rw [hc]; rfl, fun _ _ => rfl⟩
    · split at h
      · rename_i hc
        cases h
        exact ⟨[cp '+'], by rw [hc]; rfl, fun _ _ => rfl⟩
      · exact hnone h

theorem exponentOf_used {t rest : Text} {e : Option Int} (h : exponentOf t = (e, rest)) :
    ∃ used, t = used ++ rest ∧ (∀ c, used.head? = some c → c = cp 'e' ∨ c = cp 'E') ∧
      ∀ more, Stops more → exponentOf (used ++ more) = (e, more) := by
  have hnone : (none, t) = (e, rest) → ∃ used, t = used ++ rest ∧
      (∀ c, used.head? = some c → c = cp 'e' ∨ c = cp 'E') ∧
      ∀ more, Stops more → exponentOf (used ++ more) = (e, more) := by
    rintro ⟨⟩
    exact ⟨[], rfl, by simp, fun more hmore => exponentOf_stops hmore⟩
  cases t with
  | nil => exact hnone h
  | cons c t =>
    simp only [exponentOf] at h
    split at h
    case isFalse => exact hnone h
    rename_i hletter
    split at h
    case isTrue => exact hnone h
    rename_i hdigits
    generalize hparts : Text.signed t = parts at h hdigits
    obtain ⟨negative, ds⟩ := parts
    obtain ⟨sign, ht, hsign⟩ := signed_used hparts
    dsimp only at h hdigits
    obtain ⟨he, hrest⟩ := Prod.mk.inj h
    obtain ⟨run, hrun⟩ : ∃ run, run = ds.takeWhile CodePoint.isDigit := ⟨_, rfl⟩
    have hall : ∀ x ∈ run, CodePoint.isDigit x := by
      rw [hrun]
      exact fun x hx => List.mem_takeWhile_imp hx
    have hds : ds = run ++ rest := by
      rw [hrun, ← hrest, List.takeWhile_append_dropWhile]
    rw [← hrun] at he hdigits
    refine ⟨c :: (sign ++ run), by rw [ht, hds]; simp, by simpa using hletter, fun more hmore => ?_⟩
    have hspan := span_append CodePoint.isDigit hall fun x hx => (hmore x hx).1
    have hhead : ∀ x, (run ++ more).head? = some x → x ≠ cp '-' ∧ x ≠ cp '+' := by
      intro x hx
      obtain ⟨y, run, rfl⟩ := List.exists_cons_of_ne_nil (l := run) (by simpa using hdigits)
      obtain rfl : y = x := by simpa using hx
      have hy := hall y (List.mem_cons_self ..)
      constructor <;> rintro rfl <;> exact absurd hy (by decide)
    rw [List.cons_append, List.append_assoc]
    simp only [exponentOf, if_pos hletter, hsign _ hhead, hspan.1, hspan.2, if_neg hdigits, he]

inductive Bare : Json → Prop
  | null : Bare .null
  | bool (b : Bool) : Bare (.bool b)
  | int (n : Int) : Bare (.int n)
  | double (d : Double) : Bare (.double d)

def numberOf (negative : Bool) (whole fraction : Text) (exponent : Option Int) : Scan Json :=
  if fraction.isEmpty ∧ exponent.isNone then
    if whole.length > maxNumeral then .error (.fault (.numeral whole.length))
    else
      let n : Int := Text.digitsValue whole
      .ok (.int (if negative then -n else n))
  else
    .ok (.double (Double.ofDecimal negative
      ⟨(whole ++ fraction).map (· - cp '0'), whole.length + exponent.getD 0⟩))

theorem numberOf_bare {negative : Bool} {w f : Text} {e : Option Int} {v : Json}
    (h : numberOf negative w f e = .ok v) : Bare v := by
  unfold numberOf at h
  split at h
  · split at h
    · cases h
    · cases h
      exact .int _
  · cases h
    exact .double _

theorem readNumber_eq {negative : Bool} {body w a f b rest : Text} {e : Option Int}
    (hsign : body.head? ≠ some (cp '-')) (hw : wholeOf body = (w, a)) (hne : w ≠ [])
    (hf : fractionOf a = (f, b)) (he : exponentOf b = (e, rest)) :
    readNumber (minus negative ++ body) = (numberOf negative w f e).map fun v => (v, rest) := by
  have hminus : (minus negative ++ body).head? = some (cp '-') ↔ negative = true := by
    cases negative with
    | true => simp [minus]
    | false => simpa [minus] using hsign
  have hempty : w.isEmpty = false := by simpa using hne
  unfold readNumber
  dsimp only
  rw [minus_drop _ hsign, hw]
  dsimp only
  rw [hempty, if_neg Bool.false_ne_true, hf]
  dsimp only
  rw [he, numberOf]
  simp only [hminus, Bool.decide_eq_true]
  split_ifs <;> rfl

theorem readNumber_used {t rest : Text} {v : Json} (h : readNumber t = .ok (v, rest)) :
    Bare v ∧ ∃ used, t = used ++ rest ∧
      (∃ negative d more, d < 10 ∧ used = minus negative ++ digit d :: more) ∧
      ∀ more, Stops more → readNumber (used ++ more) = .ok (v, more) := by
  obtain ⟨negative, body, ht, hbody⟩ : ∃ negative body, t = minus negative ++ body ∧
      (if t.head? = some (cp '-') then t.drop 1 else t) = body := by
    by_cases hminus : t.head? = some (cp '-')
    · obtain ⟨more, rfl⟩ := List.head?_eq_some_iff.1 hminus
      exact ⟨true, more, rfl, if_pos rfl⟩
    · exact ⟨false, t, rfl, if_neg hminus⟩
  obtain ⟨w, a, hw⟩ : ∃ w a, wholeOf body = (w, a) := ⟨_, _, rfl⟩
  obtain ⟨f, b, hf⟩ : ∃ f b, fractionOf a = (f, b) := ⟨_, _, rfl⟩
  obtain ⟨e, left, he⟩ : ∃ e left, exponentOf b = (e, left) := ⟨_, _, rfl⟩
  have hne : w ≠ [] := by
    rintro rfl
    unfold readNumber at h
    dsimp only at h
    rw [hbody, hw] at h
    cases h
  obtain ⟨hsplit, ⟨d, ds, hd, hfirst⟩, hwhole⟩ := wholeOf_used hw hne
  have hsign : ∀ more, (w ++ more).head? ≠ some (cp '-') := by
    intro more hmore
    rw [hfirst, List.cons_append, List.head?_cons, Option.some.injEq, Text.digit_range hd] at hmore
    have : 48 + d = 45 := hmore
    omega
  rw [ht, readNumber_eq (hsplit ▸ hsign a) hw hne hf he] at h
  obtain ⟨x, hx, hresult⟩ := map_eq_ok.1 h
  obtain ⟨rfl, rfl⟩ := Prod.mk.inj hresult
  obtain ⟨point, ha, hpoint, hfraction⟩ := fractionOf_used hf
  obtain ⟨letter, hb, hletter, hexponent⟩ := exponentOf_used he
  refine ⟨numberOf_bare hx, minus negative ++ (w ++ (point ++ letter)), ?_,
    ⟨negative, d, ds ++ (point ++ letter), hd, by rw [hfirst]; rfl⟩, fun more hmore => ?_⟩
  · rw [ht, hsplit, ha, hb]
    simp
  -- No part goes on into the next one, which may be missing: what follows the number comes then.
  have hafter : Breaks (letter ++ more) := by
    intro c hc
    obtain hc | hc := head?_append_cases hc
    · rcases hletter c hc with rfl | rfl <;> decide
    · exact hmore.breaks c hc
  have hdigits : ∀ c, (point ++ (letter ++ more)).head? = some c → CodePoint.isDigit c = false := by
    intro c hc
    obtain hc | hc := head?_append_cases hc
    · rw [hpoint c hc]
      rfl
    · exact (hafter c hc).1
  rw [List.append_assoc, List.append_assoc, List.append_assoc,
    readNumber_eq (hsign _) (hwhole _ hdigits) hne (hfraction _ hafter) (hexponent more hmore), hx]
  rfl

theorem readWord?_used {t rest : Text} {v : Json} (h : readWord? t = some (v, rest)) :
    Bare v ∧ ∃ used, t = used ++ rest ∧ ∀ more, readWord? (used ++ more) = some (v, more) := by
  obtain ⟨w, hfound, hw⟩ := Option.map_eq_some_iff.1 h
  obtain ⟨rfl, rfl⟩ := Prod.mk.inj hw
  obtain ⟨more, rfl⟩ : w.1 <+: t := by simpa using List.find?_some hfound
  rw [List.drop_left]
  refine ⟨?_, w.1, rfl, ?_⟩
  all_goals
    have hmem := List.mem_of_find?_eq_some hfound
    clear hfound h hw
    fin_cases hmem
  all_goals first | exact fun _ => rfl | constructor

theorem readValue_plain {depth : Nat} {c : CodePoint} {r rest : Text} {v : Json}
    (h : readValue depth (c :: r) = .ok (v, rest)) (hc : ¬(c = 0x7B ∨ c = cp '[')) :
    (c = 34 ∧ ∃ s, v = .text s ∧ readString (c :: r) (r.length + 1) r = .ok (s, rest)) ∨
      c ≠ 34 ∧ readWord? (c :: r) = some (v, rest) ∨ readNumber (c :: r) = .ok (v, rest) := by
  rw [readValue.eq_def] at h
  dsimp only at h
  split at h
  · rename_i hquote
    obtain ⟨⟨s, left⟩, hs, h⟩ := bind_eq_ok h
    cases h
    exact Or.inl ⟨hquote, s, rfl, hs⟩
  · rename_i hquote
    split at h
    · rename_i p hp
      cases h
      exact Or.inr (Or.inl ⟨hquote, hp⟩)
    · exact Or.inr (Or.inr h)

/-- A value without containers is read the same in front of anything that cannot go on a number. -/
theorem readValue_used {depth : Nat} {t rest : Text} {v : Json}
    (h : readValue depth t = .ok (v, rest))
    (hplain : ∀ c, t.head? = some c → ¬(c = 0x7B ∨ c = cp '[')) :
    ∃ used, t = used ++ rest ∧
      ∀ depth' more, Stops more → readValue depth' (used ++ more) = .ok (v, more) := by
  cases t with
  | nil =>
    rw [readValue.eq_def] at h
    cases h
  | cons c r =>
    have hc := hplain c rfl
    obtain ⟨hquote, s, rfl, hs⟩ | ⟨hquote, hword⟩ | hnumber := readValue_plain h hc
    · obtain ⟨body, rfl⟩ := readString_closed hs
      refine ⟨c :: (body ++ [34]), by simp, fun depth' more _ => ?_⟩
      have hlength : body.length < (body ++ 34 :: more).length + 1 := by
        rw [List.length_append]
        omega
      have hstring := readString_used hs (c :: (body ++ 34 :: more)) more hlength
      have htext : c :: (body ++ [34]) ++ more = c :: (body ++ 34 :: more) := by simp
      rw [htext, readValue.eq_def]
      dsimp only
      rw [if_pos hquote, hstring]
      rfl
    · obtain ⟨-, used, ht, hused⟩ := readWord?_used hword
      cases used with
      | nil => cases hused []
      | cons x used =>
        obtain rfl : c = x := (List.cons.inj ht).1
        refine ⟨c :: used, ht, fun depth' more _ => ?_⟩
        have hread := hused more
        rw [List.cons_append] at hread ⊢
        rw [readValue.eq_def]
        dsimp only
        rw [if_neg hquote, if_neg hc, hread]
    · obtain ⟨-, used, ht, ⟨negative, d, ds, hd, rfl⟩, hused⟩ := readNumber_used hnumber
      refine ⟨_, ht, fun depth' more hmore => ?_⟩
      have hread := hused more hmore
      rw [List.append_assoc, List.cons_append] at hread ⊢
      rw [readValue_number depth' negative hd, hread]

/-- A text that is read whole, as a value that is no container. -/
structure Token where
  text : Text
  value : Json
  whole : readValue 0 text = .ok (value, [])

structure Key where
  text : Text
  name : Text
  whole : readValue 0 text = .ok (.text name, [])

namespace Token

theorem plain (k : Token) : ∀ c, k.text.head? = some c → ¬(c = 0x7B ∨ c = cp '[') := by
  intro c hc hbracket
  obtain ⟨r, hr⟩ := List.head?_eq_some_iff.1 hc
  have hwhole := k.whole
  rw [hr] at hwhole
  rcases hbracket with rfl | rfl <;> cases hwhole

theorem starts (k : Token) : Starts k.text := by
  obtain ⟨text, value, whole⟩ := k
  cases text with
  | nil => cases whole
  | cons c r =>
    refine ⟨c, r, rfl, ?_, ?_⟩
    · rw [Bool.eq_false_iff]
      intro hc
      simp only [isSpace, Bool.or_eq_true, decide_eq_true_eq] at hc
      rcases hc with ((rfl | rfl) | rfl) | rfl <;> cases whole
    · rintro rfl
      cases whole

theorem value_cases (k : Token) : (∃ s, k.value = .text s) ∨ Bare k.value := by
  obtain ⟨c, r, hr, -⟩ := k.starts
  have hwhole := k.whole
  rw [hr] at hwhole
  obtain ⟨-, s, hs, -⟩ | ⟨-, hword⟩ | hnumber :=
    readValue_plain hwhole (k.plain c (by rw [hr]; rfl))
  · exact Or.inl ⟨s, hs⟩
  · exact Or.inr (readWord?_used hword).1
  · exact Or.inr (readNumber_used hnumber).1

theorem reads (k : Token) (depth : Nat) {rest : Text} (h : Stops rest) :
    readValue depth (k.text ++ rest) = .ok (k.value, rest) := by
  obtain ⟨used, hused, hread⟩ := readValue_used k.whole k.plain
  rw [hused, List.append_nil]
  exact hread depth rest h

theorem of_read {depth : Nat} {t rest : Text} {v : Json} (h : readValue depth t = .ok (v, rest))
    (hplain : ∀ c, t.head? = some c → ¬(c = 0x7B ∨ c = cp '[')) :
    ∃ k : Token, t = k.text ++ rest ∧ k.value = v := by
  obtain ⟨used, ht, hread⟩ := readValue_used h hplain
  have hwhole := hread 0 [] (by simp [Stops])
  rw [List.append_nil] at hwhole
  exact ⟨⟨used, v, hwhole⟩, ht, rfl⟩

end Token

namespace Key

theorem opens (k : Key) : ∃ body, k.text = 34 :: (body ++ [34]) ∧
    ∀ start n rest, body.length < n →
      readString start n (body ++ 34 :: rest) = .ok (k.name, rest) := by
  let token : Token := ⟨k.text, .text k.name, k.whole⟩
  obtain ⟨c, r, hr, -⟩ := token.starts
  have hwhole := k.whole
  rw [show k.text = c :: r from hr] at hwhole ⊢
  obtain ⟨rfl, s, hname, hs⟩ | ⟨-, hword⟩ | hnumber :=
    readValue_plain hwhole (token.plain c (by rw [hr]; rfl))
  · obtain rfl := Json.text.inj hname
    obtain ⟨body, rfl⟩ := readString_closed hs
    exact ⟨body, rfl, fun start n rest hn => readString_used hs start rest hn⟩
  · cases (readWord?_used hword).1
  · cases (readNumber_used hnumber).1

theorem starts (k : Key) : ∃ r, k.text = 34 :: r := by
  obtain ⟨body, htext, -⟩ := k.opens
  exact ⟨_, htext⟩

theorem of_read {start r s rest : Text} {n : Nat} (h : readString start n r = .ok (s, rest)) :
    ∃ k : Key, 34 :: r = k.text ++ rest ∧ k.name = s := by
  obtain ⟨body, rfl⟩ := readString_closed h
  have hlength : body.length < (body ++ [34]).length + 1 := by
    rw [List.length_append]
    omega
  have hstring := readString_used h (34 :: (body ++ [34])) [] hlength
  have hwhole : readValue 0 (34 :: (body ++ [34])) = .ok (.text s, []) := by
    rw [readValue.eq_def]
    dsimp only
    rw [if_pos rfl, hstring]
    rfl
  exact ⟨⟨_, s, hwhole⟩, by simp, rfl⟩

end Key

end HostTelemetry.Json
