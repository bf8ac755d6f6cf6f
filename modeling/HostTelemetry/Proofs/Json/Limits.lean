import HostTelemetry.Json.Reader
import HostTelemetry.Proofs.Text.Digits
import HostTelemetry.Value.Json

/-!
# The limits of the reader

The reader stops at a place of the text unless the text is too large for it: a whole number has
more digits than can be read, or more brackets open than containers may lie in each other. Whatever
it reads has a text of its own, since no whole number in it has more digits than can be shown.
-/

set_option autoImplicit false

namespace HostTelemetry.Json

def openings (t : Text) : Nat := t.countP fun c => c = 0x7B ∨ c = cp '['

/-- A fault that comes of the size of a text. -/
inductive Excess (depth : Nat) (t : Text) : Fault → Prop
  | digits {ds : Text} (run : ds <:+: t) (all : ∀ c ∈ ds, c.isDigit)
      (many : maxNumeral < ds.length) : Excess depth t (.numeral ds.length)
  | brackets (many : depth < openings t) : Excess depth t .tooDeep

theorem Excess.of_suffix {depth : Nat} {t rest : Text} {f : Fault} (a : Excess depth rest f)
    (h : rest <:+ t) : Excess depth t f := by
  cases a with
  | digits run all many => exact .digits (run.trans h.isInfix) all many
  | brackets many => exact .brackets (Nat.lt_of_lt_of_le many (h.sublist.countP_le))

theorem openings_cons {c : CodePoint} (hc : c = 0x7B ∨ c = cp '[') (t : Text) :
    openings (c :: t) = openings t + 1 := by
  rw [openings, List.countP_cons_of_pos (by simpa using hc), openings]

theorem Excess.enclosed {depth : Nat} {c : CodePoint} {t : Text} {f : Fault} (a : Excess depth t f)
    (hc : c = 0x7B ∨ c = cp '[') : Excess (depth + 1) (c :: t) f := by
  cases a with
  | digits run all many => exact .digits (run.trans (List.suffix_cons c t).isInfix) all many
  | brackets many => exact .brackets (openings_cons hc t ▸ Nat.succ_lt_succ many)

/-- A scan that leaves an end of the text behind a value of some kind, or stops at a place, or on
an excess. -/
def Scans {α : Type} (P : α → Prop) (depth : Nat) (t : Text) : Scan (α × Text) → Prop
  | .ok (a, rest) => P a ∧ rest <:+ t
  | .error (.at ..) => True
  | .error (.fault f) => Excess depth t f

section

variable {α β : Type} {P : α → Prop} {Q : β → Prop} {depth : Nat} {t : Text}

theorem Scans.of_suffix {rest : Text} {x : Scan (α × Text)} (a : Scans P depth rest x)
    (h : rest <:+ t) : Scans P depth t x := by
  rcases x with (_ | f) | ⟨v, more⟩
  · trivial
  · exact Excess.of_suffix a h
  · exact ⟨a.1, a.2.trans h⟩

theorem Scans.bind {x : Scan (α × Text)} {f : α × Text → Scan (β × Text)} (a : Scans P depth t x)
    (hf : ∀ v rest, P v → rest <:+ t → Scans Q depth t (f (v, rest))) :
    Scans Q depth t (x >>= f) := by
  rcases x with (_ | g) | ⟨v, more⟩
  · trivial
  · exact a
  · exact hf v more a.1 a.2

theorem Scans.enclosed {c : CodePoint} {x : Scan (α × Text)} (a : Scans P depth t x)
    (hc : c = 0x7B ∨ c = cp '[') : Scans P (depth + 1) (c :: t) x := by
  rcases x with (_ | f) | ⟨v, more⟩
  · trivial
  · exact Excess.enclosed a hc
  · exact ⟨a.1, a.2.trans (List.suffix_cons c t)⟩

end

theorem skipSpace_suffix (t : Text) : skipSpace t <:+ t := List.dropWhile_suffix _

theorem joinPair_scans (high : CodePoint) (depth : Nat) (t : Text) :
    Scans (fun _ => True) depth t (joinPair high t) := by
  unfold joinPair
  split
  · split
    · trivial
    · split
      · exact ⟨trivial, List.drop_suffix 6 t⟩
      · exact ⟨trivial, List.suffix_rfl⟩
  · exact ⟨trivial, List.suffix_rfl⟩

theorem readEscape_scans (start slash : Text) (depth : Nat) :
    Scans (fun _ => True) depth slash (readEscape start slash) := by
  have hdrop : slash.drop 1 <:+ slash := List.drop_suffix 1 slash
  unfold readEscape
  split
  · trivial
  · rename_i c t hslash
    rw [hslash] at hdrop
    have ht : t <:+ slash := (List.suffix_cons c t).trans hdrop
    split
    · split
      · trivial
      · split
        · trivial
        · exact (joinPair_scans _ depth _).of_suffix ((List.drop_suffix 4 t).trans ht)
    · split
      · exact ⟨trivial, ht⟩
      · trivial

theorem readString_scans (start : Text) (n depth : Nat) (t : Text) :
    Scans (fun _ => True) depth t (readString start n t) := by
  induction n generalizing t with
  | zero => trivial
  | succ n ih =>
    cases t with
    | nil => trivial
    | cons c t =>
      have ht : t <:+ c :: t := List.suffix_cons c t
      unfold readString
      split
      · exact ⟨trivial, ht⟩
      · split
        · apply (readEscape_scans start (c :: t) depth).bind
          intro e rest _ hrest
          apply ((ih rest).of_suffix hrest).bind
          intro s more _ hmore
          exact ⟨trivial, hmore⟩
        · split
          · trivial
          · apply ((ih t).of_suffix ht).bind
            intro s more _ hmore
            exact ⟨trivial, hmore⟩

def Shows (v : Json) : Prop := ∃ s, (Value.ofJson v).shown = .ok s

theorem int_shows {n : Int} (h : n.natAbs < 10 ^ maxDigits) : Shows (.int n) := by
  refine ⟨Text.ofInt n, ?_⟩
  rw [Value.ofJson, Value.shown]
  exact if_pos h

theorem wholeOf_spec (t : Text) :
    (wholeOf t).1 ++ (wholeOf t).2 = t ∧ ∀ c ∈ (wholeOf t).1, CodePoint.isDigit c := by
  unfold wholeOf
  split
  · rename_i c r
    split
    · rename_i hc
      refine ⟨rfl, fun d hd => ?_⟩
      rw [List.mem_singleton.1 hd, hc]
      rfl
    · exact ⟨List.takeWhile_append_dropWhile, fun d hd => List.mem_takeWhile_imp hd⟩
  · exact ⟨rfl, by simp⟩

theorem fractionOf_suffix (t : Text) : (fractionOf t).2 <:+ t := by
  unfold fractionOf
  split
  · rename_i c d r
    split
    · exact (List.dropWhile_suffix _).trans (List.suffix_cons c (d :: r))
    · exact List.suffix_rfl
  · exact List.suffix_rfl

theorem signed_suffix (t : Text) : (Text.signed t).2 <:+ t := by
  cases t with
  | nil => exact List.suffix_rfl
  | cons c t =>
    simp only [Text.signed]
    split
    · exact List.suffix_cons c t
    · split
      · exact List.suffix_cons c t
      · exact List.suffix_rfl

theorem exponentOf_suffix (t : Text) : (exponentOf t).2 <:+ t := by
  unfold exponentOf
  split
  · rename_i c r
    split
    · dsimp only
      split
      · exact List.suffix_rfl
      · exact ((List.dropWhile_suffix _).trans (signed_suffix r)).trans (List.suffix_cons c r)
    · exact List.suffix_rfl
  · exact List.suffix_rfl

theorem digitsValue_lt {ds : Text} (h : ∀ c ∈ ds, CodePoint.isDigit c) :
    Text.digitsValue ds < 10 ^ ds.length := by
  have hall : ∀ d ∈ ds.map (· - cp '0'), d < 10 := by
    intro d hd
    obtain ⟨c, hc, rfl⟩ := List.mem_map.1 hd
    have hdigit := h c hc
    simp only [CodePoint.isDigit, Bool.and_eq_true, decide_eq_true_eq] at hdigit
    exact (Nat.sub_lt_iff_lt_add hdigit.1).2 (Nat.lt_succ_of_le hdigit.2)
  have hlt := Digits.value_lt _ hall
  rwa [List.length_map] at hlt

theorem readNumber_scans (depth : Nat) (t : Text) : Scans Shows depth t (readNumber t) := by
  unfold readNumber
  dsimp only
  generalize hbody : (if t.head? = some (cp '-') then t.drop 1 else t) = body
  have hbody_suffix : body <:+ t := by
    rw [← hbody]
    split
    · exact List.drop_suffix 1 t
    · exact List.suffix_rfl
  obtain ⟨hsplit, hdigits⟩ := wholeOf_spec body
  generalize wholeOf body = parts at *
  have hrest : parts.2 <:+ t := by
    apply List.IsSuffix.trans _ hbody_suffix
    exact ⟨parts.1, hsplit⟩
  have hend : (exponentOf (fractionOf parts.2).2).2 <:+ t :=
    ((exponentOf_suffix _).trans (fractionOf_suffix _)).trans hrest
  split
  · trivial
  · split
    · split
      · rename_i hmany
        refine Excess.digits ?_ hdigits hmany
        exact List.IsInfix.trans ⟨[], parts.2, hsplit⟩ hbody_suffix.isInfix
      · rename_i hfew
        refine ⟨int_shows ?_, hend⟩
        have hvalue : Text.digitsValue parts.1 < 10 ^ maxDigits :=
          Nat.lt_of_lt_of_le (digitsValue_lt hdigits)
            (Nat.pow_le_pow_right (by omega) (Nat.le_of_not_lt hfew))
        split <;> simpa using hvalue
    · exact ⟨⟨_, rfl⟩, hend⟩

theorem readWord?_scans (depth : Nat) {t : Text} {p : Json × Text} (h : readWord? t = some p) :
    Scans Shows depth t (.ok p) := by
  obtain ⟨w, hfound, rfl⟩ := Option.map_eq_some_iff.1 h
  have hwords : ∀ w ∈ words, Shows w.2 := by
    intro w hw
    fin_cases hw <;> exact ⟨_, rfl⟩
  exact ⟨hwords w (List.mem_of_find?_eq_some hfound), List.drop_suffix _ t⟩

theorem array_shows {xs : List Json} (h : ∀ x ∈ xs, Shows x) : Shows (.array xs) := by
  have hall : ∃ ts, Value.shownAll (Value.ofJsonAll xs) = .ok ts := by
    induction xs with
    | nil => exact ⟨[], rfl⟩
    | cons x xs ih =>
      obtain ⟨s, hs⟩ := h x (List.mem_cons_self ..)
      obtain ⟨ts, hts⟩ := ih fun y hy => h y (List.mem_cons_of_mem _ hy)
      rw [Value.ofJsonAll, Value.shownAll, hs, hts]
      exact ⟨s :: ts, rfl⟩
  obtain ⟨ts, hts⟩ := hall
  rw [Shows, Value.ofJson, Value.shown, hts]
  exact ⟨_, rfl⟩

theorem object_shows {kvs : List (Text × Json)} (h : ∀ m ∈ kvs, Shows m.2) :
    Shows (.object kvs) := by
  have hall : ∃ ts, Value.shownPairs (Value.ofJsonMembers kvs) = .ok ts := by
    induction kvs with
    | nil => exact ⟨[], rfl⟩
    | cons m kvs ih =>
      obtain ⟨key, x⟩ := m
      obtain ⟨s, hs⟩ := h (key, x) (List.mem_cons_self ..)
      obtain ⟨ts, hts⟩ := ih fun y hy => h y (List.mem_cons_of_mem _ hy)
      rw [Value.ofJsonMembers, Value.shownPairs, Value.shown, hs, hts]
      exact ⟨_, rfl⟩
  obtain ⟨ts, hts⟩ := hall
  rw [Shows, Value.ofJson, Value.shown, hts]
  exact ⟨_, rfl⟩

theorem shows_of_object {kvs : List (Text × Json)} (h : Shows (.object kvs)) :
    ∀ m ∈ kvs, Shows m.2 := by
  obtain ⟨s, hs⟩ := h
  rw [Value.ofJson, Value.shown] at hs
  cases hpairs : Value.shownPairs (Value.ofJsonMembers kvs) with
  | error f =>
    rw [hpairs] at hs
    cases hs
  | ok ts =>
    clear hs
    induction kvs generalizing ts with
    | nil => simp
    | cons m kvs ih =>
      obtain ⟨key, x⟩ := m
      rw [Value.ofJsonMembers, Value.shownPairs, Value.shown] at hpairs
      rcases hx : (Value.ofJson x).shown with f | t
      · rw [hx] at hpairs
        cases hpairs
      · rcases hrest : Value.shownPairs (Value.ofJsonMembers kvs) with f | us
        · rw [hx, hrest] at hpairs
          cases hpairs
        · intro m hm
          obtain rfl | hm := List.mem_cons.1 hm
          · exact ⟨t, hx⟩
          · exact ih us hrest m hm

theorem mem_insert {key : Text} {value : Json} {kvs : List (Text × Json)} {m : Text × Json}
    (h : m ∈ insert key value kvs) : m.2 = value ∨ m ∈ kvs := by
  induction kvs with
  | nil => exact Or.inl (by rw [List.mem_singleton.1 h])
  | cons kv kvs ih =>
    obtain ⟨k, v⟩ := kv
    rw [insert] at h
    split at h
    · obtain rfl | h := List.mem_cons.1 h
      · exact Or.inl rfl
      · exact Or.inr (List.mem_cons_of_mem _ h)
    · obtain rfl | h := List.mem_cons.1 h
      · exact Or.inr (List.mem_cons_self ..)
      · exact (ih h).imp_right (List.mem_cons_of_mem _)

theorem objectOf_shows {kvs : List (Text × Json)} (h : ∀ m ∈ kvs, Shows m.2) :
    Shows (objectOf kvs) := by
  have hfold : ∀ (o : List (Text × Json)), (∀ m ∈ o, Shows m.2) →
      ∀ m ∈ kvs.foldl (fun o m => insert m.1 m.2 o) o, Shows m.2 := by
    induction kvs with
    | nil => exact fun o ho => ho
    | cons kv kvs ih =>
      intro o ho
      apply ih fun m hm => h m (List.mem_cons_of_mem _ hm)
      intro m hm
      obtain hm | hm := mem_insert hm
      · rw [hm]
        exact h kv (List.mem_cons_self ..)
      · exact ho m hm
  exact object_shows (hfold [] (by simp))

section

variable {item : Text → Scan (Json × Text)} {depth : Nat}

theorem readItems_scans (hitem : ∀ t, Scans Shows depth t (item t)) (n : Nat) (t : Text) :
    Scans (fun xs => ∀ x ∈ xs, Shows x) depth t (readItems item n t) := by
  induction n generalizing t with
  | zero => trivial
  | succ n ih =>
    unfold readItems
    apply (hitem t).bind
    intro x rest hx hrest
    have hskip : skipSpace rest <:+ t := (skipSpace_suffix rest).trans hrest
    dsimp only
    split
    · trivial
    · rename_i c more hmore
      have hmore : more <:+ t := (hmore ▸ List.suffix_cons c more).trans hskip
      split
      · exact ⟨by simpa using hx, hmore⟩
      · split
        · apply ((ih _).of_suffix ((skipSpace_suffix more).trans hmore)).bind
          intro xs rest hxs hrest
          exact ⟨by simpa using ⟨hx, hxs⟩, hrest⟩
        · trivial

theorem readKey_scans (depth : Nat) (t : Text) : Scans (fun _ => True) depth t (readKey t) := by
  unfold readKey
  split
  · trivial
  · rename_i c r
    split
    · have hstring := readString_scans (c :: r) (r.length + 1) depth r
      apply (hstring.of_suffix (List.suffix_cons c r)).bind
      intro key rest _ hrest
      have hskip : skipSpace rest <:+ c :: r := (skipSpace_suffix rest).trans hrest
      dsimp only
      split
      · trivial
      · rename_i d more hmore
        have hmore : more <:+ c :: r := (hmore ▸ List.suffix_cons d more).trans hskip
        split
        · exact ⟨trivial, (skipSpace_suffix more).trans hmore⟩
        · trivial
    · trivial

theorem readMembers_scans (hitem : ∀ t, Scans Shows depth t (item t)) (n : Nat) (t : Text) :
    Scans (fun kvs => ∀ m ∈ kvs, Shows m.2) depth t (readMembers item n t) := by
  induction n generalizing t with
  | zero => trivial
  | succ n ih =>
    unfold readMembers
    apply (readKey_scans depth t).bind
    intro key rest _ hrest
    apply ((hitem rest).of_suffix hrest).bind
    intro x rest hx hrest
    have hskip : skipSpace rest <:+ t := (skipSpace_suffix rest).trans hrest
    dsimp only
    split
    · trivial
    · rename_i c more hmore
      have hmore : more <:+ t := (hmore ▸ List.suffix_cons c more).trans hskip
      split
      · exact ⟨by simpa using hx, hmore⟩
      · split
        · apply ((ih _).of_suffix ((skipSpace_suffix more).trans hmore)).bind
          intro kvs rest hkvs hrest
          refine ⟨?_, hrest⟩
          intro m hm
          obtain rfl | hm := List.mem_cons.1 hm
          · exact hx
          · exact hkvs m hm
        · trivial

theorem readArray_scans (hitem : ∀ t, Scans Shows depth t (item t)) (t : Text) :
    Scans Shows depth t (readArray item t) := by
  have hskip := skipSpace_suffix t
  unfold readArray
  split
  · trivial
  · rename_i c r hr
    rw [hr] at hskip
    split
    · exact ⟨array_shows (by simp), (List.suffix_cons c r).trans hskip⟩
    · apply ((readItems_scans hitem (r.length + 1) (c :: r)).of_suffix hskip).bind
      intro xs rest hxs hrest
      exact ⟨array_shows hxs, hrest⟩

theorem readObject_scans (hitem : ∀ t, Scans Shows depth t (item t)) (t : Text) :
    Scans Shows depth t (readObject item t) := by
  have hskip := skipSpace_suffix t
  unfold readObject
  split
  · trivial
  · rename_i c r hr
    rw [hr] at hskip
    split
    · exact ⟨object_shows (by simp), (List.suffix_cons c r).trans hskip⟩
    · apply ((readMembers_scans hitem (r.length + 1) (c :: r)).of_suffix hskip).bind
      intro kvs rest hkvs hrest
      exact ⟨objectOf_shows hkvs, hrest⟩

end

theorem string_scans (c : CodePoint) (r : Text) (depth : Nat) :
    Scans Shows depth (c :: r) (do
      let (s, rest) ← readString (c :: r) (r.length + 1) r
      pure (.text s, rest)) := by
  apply ((readString_scans (c :: r) (r.length + 1) depth r).of_suffix (List.suffix_cons c r)).bind
  intro s rest _ hrest
  exact ⟨⟨_, rfl⟩, hrest⟩

theorem plain_scans (depth : Nat) (t : Text) :
    Scans Shows depth t (match readWord? t with
      | some p => .ok p
      | none => readNumber t) := by
  split
  · rename_i p hp
    exact readWord?_scans depth hp
  · exact readNumber_scans depth t

theorem readValue_scans (depth : Nat) (t : Text) : Scans Shows depth t (readValue depth t) := by
  induction depth generalizing t with
  | zero =>
    cases t with
    | nil => trivial
    | cons c r =>
      unfold readValue
      split
      · exact string_scans c r 0
      · split
        · rename_i hc
          exact Excess.brackets (openings_cons hc r ▸ Nat.succ_pos _)
        · exact plain_scans 0 (c :: r)
  | succ depth ih =>
    cases t with
    | nil => trivial
    | cons c r =>
      unfold readValue
      split
      · exact string_scans c r (depth + 1)
      · split
        · rename_i hc
          dsimp only
          split
          · exact (readArray_scans ih r).enclosed hc
          · exact (readObject_scans ih r).enclosed hc
        · exact plain_scans (depth + 1) (c :: r)

theorem read_cases (depth : Nat) (t : Text) :
    (∃ v, read depth t = .ok v ∧ Shows v) ∨ (∃ f p, read depth t = .error (.json f p)) ∨
      ∃ f, read depth t = .error f ∧ Excess depth t f := by
  have hscan := (readValue_scans depth (skipSpace t)).of_suffix (skipSpace_suffix t)
  unfold read
  dsimp only
  split
  · exact Or.inr (Or.inl ⟨_, _, rfl⟩)
  · rcases hvalue : readValue depth (skipSpace t) with (⟨f, rest⟩ | f) | ⟨v, rest⟩
    · exact Or.inr (Or.inl ⟨_, _, rfl⟩)
    · rw [hvalue] at hscan
      exact Or.inr (Or.inr ⟨f, rfl, hscan⟩)
    · rw [hvalue] at hscan
      dsimp only
      split
      · exact Or.inl ⟨v, rfl, hscan.1⟩
      · exact Or.inr (Or.inl ⟨_, _, rfl⟩)

/-- One bracket too many, and nothing that comes after it is looked at. -/
theorem readValue_brackets (depth : Nat) (t : Text) :
    readValue depth (List.replicate (depth + 1) (cp '[') ++ t) = .error (.fault .tooDeep) := by
  induction depth with
  | zero => rfl
  | succ depth ih =>
    have hone : List.replicate (depth + 2) (cp '[') ++ t =
        cp '[' :: (List.replicate (depth + 1) (cp '[') ++ t) := rfl
    have htwo : List.replicate (depth + 1) (cp '[') ++ t =
        cp '[' :: (List.replicate depth (cp '[') ++ t) := rfl
    have hskip : skipSpace (List.replicate (depth + 1) (cp '[') ++ t) =
        List.replicate (depth + 1) (cp '[') ++ t := by rw [htwo]; rfl
    have harray : readValue (depth + 1) (cp '[' :: (List.replicate (depth + 1) (cp '[') ++ t)) =
        readArray (readValue depth) (List.replicate (depth + 1) (cp '[') ++ t) := rfl
    rw [hone, harray, readArray, hskip]
    rw [htwo] at ih ⊢
    dsimp only
    rw [if_neg (by decide), readItems, ih]
    rfl

theorem read_brackets (depth : Nat) (t : Text) :
    read depth (List.replicate (depth + 1) (cp '[') ++ t) = .error .tooDeep := by
  have hskip : skipSpace (List.replicate (depth + 1) (cp '[') ++ t) =
      List.replicate (depth + 1) (cp '[') ++ t := rfl
  have hmark : (List.replicate (depth + 1) (cp '[') ++ t).head? = some (cp '[') := rfl
  have hne : some (cp '[') ≠ some 0xFEFF := by decide
  simp only [read, hskip, hmark, if_neg hne, readValue_brackets]

end HostTelemetry.Json
