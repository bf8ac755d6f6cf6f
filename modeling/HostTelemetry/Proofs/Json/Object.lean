import HostTelemetry.Proofs.Json.Number
import HostTelemetry.Proofs.Json.String
import HostTelemetry.Proofs.Json.Visible

/-!
# Arrays and objects in JSON

Doubles, whole numbers and strings are read back from the front of any text that cannot go on with
them. Arrays and objects of what is read back are read back too, item by item, whatever blanks the
layout puts between them.
-/

set_option autoImplicit false

namespace HostTelemetry.Json

open Text (digit)

def Solid (t : Text) : Prop := ∀ c, t.head? = some c → isSpace c = false

theorem solid_cons {c : CodePoint} (h : isSpace c = false) (t : Text) : Solid (c :: t) := by
  intro d hd
  obtain rfl : c = d := by simpa using hd
  exact h

theorem skipSpace_solid {t : Text} (h : Solid t) : skipSpace t = t := by
  cases t with
  | nil => rfl
  | cons c t => simp [skipSpace, h c rfl]

def Blank (t : Text) : Prop := ∀ c ∈ t, isSpace c

theorem skipSpace_blank {s t : Text} (hs : Blank s) (ht : Solid t) : skipSpace (s ++ t) = t := by
  rw [skipSpace, List.dropWhile_append_of_pos hs]
  exact skipSpace_solid ht

structure Layout.Marks (l : Layout) (item key : Text) : Prop where
  item_eq : l.item = cp ',' :: item
  key_eq : l.key = cp ':' :: key
  item_blank : Blank item
  key_blank : Blank key

theorem dense_marks : dense.Marks [] [] := ⟨rfl, rfl, by simp [Blank], by simp [Blank]⟩

theorem spaced_marks : spaced.Marks [32] [32] :=
  ⟨rfl, rfl, by simp [Blank, isSpace], by simp [Blank, isSpace]⟩

def Starts (t : Text) : Prop := ∃ c r, t = c :: r ∧ isSpace c = false ∧ c ≠ cp ']'

theorem Starts.solid {t : Text} (h : Starts t) (rest : Text) : Solid (t ++ rest) := by
  obtain ⟨c, r, rfl, hc, -⟩ := h
  exact solid_cons hc _

/-- A value is read from the front of any text that cannot go on with it. -/
structure Reads (l : Layout) (item : Text → Scan (Json × Text)) (v : Json) : Prop where
  starts : Starts (render l v)
  reads : ∀ rest, Stops rest → item (render l v ++ rest) = .ok (v, rest)

theorem stops_cons {c : CodePoint} (rest : Text) (h : c = cp ',' ∨ c = cp ']' ∨ c = 0x7D) :
    Stops (c :: rest) := by
  rintro d hd
  obtain rfl : c = d := by simpa using hd
  rcases h with rfl | rfl | rfl <;> decide

theorem readWord?_number (negative : Bool) {d : Nat} (h : d < 10) (t : Text) :
    readWord? (minus negative ++ digit d :: t) = none := by
  cases negative <;> interval_cases d <;> rfl

theorem minus_starts (negative : Bool) {d : Nat} (h : d < 10) (t : Text) :
    Starts (minus negative ++ digit d :: t) := by
  cases negative with
  | true => exact ⟨cp '-', _, rfl, by decide, by decide⟩
  | false => exact ⟨digit d, t, rfl, by interval_cases d <;> rfl, by interval_cases d <;> decide⟩

theorem readValue_number (depth : Nat) (negative : Bool) {d : Nat} (h : d < 10) (t : Text) :
    readValue depth (minus negative ++ digit d :: t) =
      readNumber (minus negative ++ digit d :: t) := by
  have hword := readWord?_number negative h t
  obtain ⟨c, r, hcons, hquote, hbracket⟩ : ∃ c r, minus negative ++ digit d :: t = c :: r ∧
      c ≠ 34 ∧ ¬(c = 0x7B ∨ c = cp '[') := by
    cases negative with
    | true => exact ⟨cp '-', _, rfl, by decide⟩
    | false => exact ⟨digit d, _, rfl, by interval_cases d <;> decide⟩
  rw [hcons] at hword ⊢
  rw [readValue.eq_def]
  dsimp only
  rw [if_neg hquote, if_neg hbracket, hword]

theorem number_reads (l : Layout) (depth : Nat) {x : Double} (hx : x.isFinite = true) :
    Reads l (readValue depth) (.double x) := by
  obtain ⟨negative, d, t, hd, htext⟩ := render_head hx
  constructor
  case starts =>
    rw [render, htext]
    exact minus_starts negative hd t
  case reads =>
    intro rest hrest
    have hread := readNumber_render hx hrest
    rw [render]
    rw [htext, List.append_assoc, List.cons_append] at hread ⊢
    rw [readValue_number depth negative hd, hread]

theorem leads_ofNat (n : Nat) : Leads (Digits.ofNat n) := by
  by_cases hn : n = 0
  · exact Or.inl (by rw [hn]; rfl)
  · obtain ⟨d, ds, hds, hd⟩ := Digits.ofPos_head (Nat.pos_of_ne_zero hn)
    exact Or.inr ⟨d, ds, by rw [Digits.ofNat, if_neg hn, hds], hd⟩

theorem ofInt_eq (n : Int) : Text.ofInt n = minus (decide (n < 0)) ++ Text.ofNat n.natAbs := by
  cases n with
  | ofNat n => simp [Text.ofInt, minus]
  | negSucc n => simp [Text.ofInt, minus, Int.negSucc_lt_zero]

theorem readNumber_ofInt {n : Int} (h : n.natAbs < 10 ^ maxNumeral) {rest : Text}
    (hrest : Stops rest) : readNumber (Text.ofInt n ++ rest) = .ok (.int n, rest) := by
  have hdigits := Digits.ofNat_lt n.natAbs
  have hlead := leads_ofNat n.natAbs
  have hwhole := wholeOf_digits hdigits hlead fun c hc => (hrest c hc).1
  have hsign : (Text.ofNat n.natAbs ++ rest).head? ≠ some (cp '-') := by
    obtain ⟨c, cs, hcs⟩ := List.exists_cons_of_ne_nil hlead.ne_nil
    have hc : c < 10 := hdigits c (by rw [hcs]; exact List.mem_cons_self ..)
    rw [Text.ofNat, hcs]
    intro hr
    have hdigit : digit c = cp '-' := by simpa using hr
    rw [Text.digit_range hc] at hdigit
    have : 48 + c = 45 := hdigit
    omega
  have hempty : ((Digits.ofNat n.natAbs).map digit).isEmpty = false := by
    simpa using hlead.ne_nil
  have hfraction : fractionOf rest = ([], rest) := by
    have hpointed := @fractionOf_pointed [] rest (by simp) fun c hc =>
      ⟨(hrest c hc).1, (hrest c hc).2.1⟩
    exact hpointed
  have hlength : ¬((Digits.ofNat n.natAbs).map digit).length > maxNumeral := by
    rw [List.length_map]
    exact Nat.not_lt.2 (Digits.ofNat_length_le (by decide) h)
  have hvalue : Text.digitsValue ((Digits.ofNat n.natAbs).map digit) = n.natAbs := by
    rw [Text.digitsValue_map hdigits, Digits.value_ofNat]
  have hint : (if n < 0 then -(n.natAbs : Int) else n.natAbs) = n := by
    split <;> omega
  have hminus := minus_head (decide (n < 0)) hsign
  rw [decide_eq_decide] at hminus
  rw [ofInt_eq, List.append_assoc]
  unfold readNumber
  dsimp only
  rw [minus_drop _ hsign]
  simp only [hminus]
  unfold Text.ofNat
  rw [hwhole]
  dsimp only
  rw [hempty, if_neg Bool.false_ne_true, hfraction]
  dsimp only
  rw [exponentOf_stops hrest]
  dsimp only
  rw [if_pos ⟨rfl, rfl⟩, if_neg hlength, hvalue, hint]

theorem int_reads (l : Layout) (depth : Nat) {n : Int} (h : n.natAbs < 10 ^ maxNumeral) :
    Reads l (readValue depth) (.int n) := by
  obtain ⟨d, ds, hds⟩ := List.exists_cons_of_ne_nil (leads_ofNat n.natAbs).ne_nil
  have hd : d < 10 := Digits.ofNat_lt n.natAbs d (by rw [hds]; exact List.mem_cons_self ..)
  have htext : Text.ofInt n = minus (decide (n < 0)) ++ digit d :: ds.map digit := by
    rw [ofInt_eq, Text.ofNat, hds]
    rfl
  constructor
  case starts =>
    rw [render, htext]
    exact minus_starts _ hd _
  case reads =>
    intro rest hrest
    have hread := readNumber_ofInt h hrest
    rw [render]
    rw [htext, List.append_assoc, List.cons_append] at hread ⊢
    rw [readValue_number depth _ hd, hread]

theorem text_reads (l : Layout) (depth : Nat) {t : Text} (ht : Clean t) :
    Reads l (readValue depth) (.text t) := by
  constructor
  case starts => exact ⟨34, _, rfl, by decide, by decide⟩
  case reads =>
    intro rest _
    obtain ⟨r, htext, hread⟩ := readString_string ht rest
    rw [render, htext, readValue.eq_def]
    dsimp only
    rw [if_pos rfl, hread]
    rfl

def itemsText (l : Layout) (xs : List Json) : Text := Text.join l.item (renderAll l xs)

theorem itemsText_cons (l : Layout) (v x : Json) (xs : List Json) :
    itemsText l (v :: x :: xs) = render l v ++ l.item ++ itemsText l (x :: xs) := rfl

section

variable {l : Layout} {itemGap keyGap : Text} {item : Text → Scan (Json × Text)}

theorem itemsText_starts {v : Json} (hv : Reads l item v) (xs : List Json) :
    Starts (itemsText l (v :: xs)) := by
  cases xs with
  | nil => exact hv.starts
  | cons x xs =>
    obtain ⟨c, r, hr, hc⟩ := hv.starts
    exact ⟨c, _, by rw [itemsText_cons, hr]; rfl, hc⟩

theorem readItems_text (marks : l.Marks itemGap keyGap) (xs : List Json) (hne : xs ≠ [])
    (hvalues : ∀ v ∈ xs, Reads l item v) (n : Nat) (hn : xs.length ≤ n) (rest : Text) :
    readItems item n (itemsText l xs ++ cp ']' :: rest) = .ok (xs, rest) := by
  induction xs generalizing n with
  | nil => exact absurd rfl hne
  | cons v xs ih =>
    obtain ⟨n, rfl⟩ : ∃ j, n = j + 1 := ⟨n - 1, by simp at hn; omega⟩
    have hv := hvalues v (List.mem_cons_self ..)
    cases xs with
    | nil =>
      have htext : itemsText l [v] ++ cp ']' :: rest = render l v ++ cp ']' :: rest := rfl
      have hend : skipSpace (cp ']' :: rest) = cp ']' :: rest := rfl
      rw [htext, readItems, hv.reads _ (stops_cons rest (Or.inr (Or.inl rfl)))]
      simp only [bind, Except.bind, hend, if_true]
      rfl
    | cons x xs =>
      have htext : itemsText l (v :: x :: xs) ++ cp ']' :: rest =
          render l v ++ cp ',' :: (itemGap ++ (itemsText l (x :: xs) ++ cp ']' :: rest)) := by
        rw [itemsText_cons, marks.item_eq]
        simp
      have hx := hvalues x (List.mem_cons_of_mem _ (List.mem_cons_self ..))
      have hgap := skipSpace_blank marks.item_blank
        ((itemsText_starts hx xs).solid (cp ']' :: rest))
      have hcomma : ∀ t, skipSpace (cp ',' :: t) = cp ',' :: t := fun _ => rfl
      have hrest := ih (by simp) (fun y hy => hvalues y (List.mem_cons_of_mem _ hy)) n
        (by simp at hn ⊢; omega)
      have hbracket : cp ',' ≠ cp ']' := by decide
      rw [htext, readItems, hv.reads _ (stops_cons _ (Or.inl rfl))]
      simp only [bind, Except.bind, hcomma, if_neg hbracket, if_true, hgap, hrest]
      rfl

theorem length_le_itemsText (marks : l.Marks itemGap keyGap) (xs : List Json) :
    xs.length ≤ (itemsText l xs).length + 1 := by
  induction xs with
  | nil => exact Nat.zero_le _
  | cons v xs ih =>
    cases xs with
    | nil => simp
    | cons x xs =>
      rw [itemsText_cons, marks.item_eq]
      simp only [List.length_append, List.length_cons] at ih ⊢
      omega

theorem array_reads (marks : l.Marks itemGap keyGap) {depth : Nat} {xs : List Json}
    (h : ∀ v ∈ xs, Reads l (readValue depth) v) : Reads l (readValue (depth + 1)) (.array xs) := by
  constructor
  case starts => exact ⟨cp '[', _, rfl, by decide, by decide⟩
  case reads =>
    intro rest _
    have htext : render l (.array xs) ++ rest = cp '[' :: (itemsText l xs ++ cp ']' :: rest) := by
      rw [render, itemsText]
      simp
    have hvalue : readValue (depth + 1) (cp '[' :: (itemsText l xs ++ cp ']' :: rest)) =
        readArray (readValue depth) (itemsText l xs ++ cp ']' :: rest) := by
      rw [readValue, if_neg (by decide), if_pos (Or.inr rfl)]
      rfl
    rw [htext, hvalue]
    cases xs with
    | nil => rfl
    | cons v xs =>
      have hstarts := itemsText_starts (h v (List.mem_cons_self ..)) xs
      have hcount : (v :: xs).length ≤ (itemsText l (v :: xs) ++ cp ']' :: rest).length := by
        have hle := length_le_itemsText marks (v :: xs)
        simp only [List.length_append, List.length_cons] at hle ⊢
        omega
      have hitems := readItems_text marks (v :: xs) (by simp) h _ hcount rest
      have hskip := skipSpace_solid (hstarts.solid (cp ']' :: rest))
      obtain ⟨c, r, hr, -, hc⟩ := hstarts
      rw [hr, List.cons_append] at hitems hskip ⊢
      rw [List.length_cons] at hitems
      rw [readArray, hskip]
      dsimp only
      rw [if_neg hc, hitems]
      rfl

def membersText (l : Layout) (kvs : List (Text × Json)) : Text :=
  Text.join l.item (renderMembers l kvs)

theorem membersText_single (l : Layout) (k : Text) (v : Json) :
    membersText l [(k, v)] = string k ++ l.key ++ render l v := rfl

theorem membersText_cons (l : Layout) (k : Text) (v : Json) (m : Text × Json)
    (kvs : List (Text × Json)) :
    membersText l ((k, v) :: m :: kvs) =
      string k ++ l.key ++ render l v ++ l.item ++ membersText l (m :: kvs) := by
  obtain ⟨j, x⟩ := m
  rfl

theorem membersText_head (l : Layout) (m : Text × Json) (kvs : List (Text × Json)) :
    ∃ t, membersText l (m :: kvs) = 34 :: t := by
  obtain ⟨k, v⟩ := m
  cases kvs with
  | nil => exact ⟨_, membersText_single l k v⟩
  | cons m kvs => exact ⟨_, membersText_cons l k v m kvs⟩

theorem readKey_clean (marks : l.Marks itemGap keyGap) {k : Text} (hk : Clean k) {rest : Text}
    (hrest : Solid rest) : readKey (string k ++ l.key ++ rest) = .ok (k, rest) := by
  obtain ⟨r, htext, hread⟩ := readString_string hk (l.key ++ rest)
  have hcolon : ∀ t, skipSpace (cp ':' :: t) = cp ':' :: t := fun _ => rfl
  have hgap := skipSpace_blank marks.key_blank hrest
  rw [List.append_assoc, htext, readKey, if_pos rfl, hread, marks.key_eq, List.cons_append]
  simp only [bind, Except.bind, hcolon, if_true, hgap]
  rfl

theorem readMembers_text (marks : l.Marks itemGap keyGap) (kvs : List (Text × Json))
    (hne : kvs ≠ []) (hkeys : ∀ m ∈ kvs, Clean m.1) (hvalues : ∀ m ∈ kvs, Reads l item m.2)
    (n : Nat) (hn : kvs.length ≤ n) (rest : Text) :
    readMembers item n (membersText l kvs ++ 0x7D :: rest) = .ok (kvs, rest) := by
  induction kvs generalizing n with
  | nil => exact absurd rfl hne
  | cons m kvs ih =>
    obtain ⟨k, v⟩ := m
    obtain ⟨n, rfl⟩ : ∃ j, n = j + 1 := ⟨n - 1, by simp at hn; omega⟩
    have hk := hkeys (k, v) (List.mem_cons_self ..)
    have hv := hvalues (k, v) (List.mem_cons_self ..)
    cases kvs with
    | nil =>
      have htext : membersText l [(k, v)] ++ 0x7D :: rest =
          string k ++ l.key ++ (render l v ++ 0x7D :: rest) := by
        rw [membersText_single]
        simp
      have hbrace : skipSpace (0x7D :: rest) = 0x7D :: rest := rfl
      rw [htext, readMembers, readKey_clean marks hk (hv.starts.solid _)]
      simp only [bind, Except.bind]
      rw [hv.reads _ (stops_cons rest (Or.inr (Or.inr rfl)))]
      simp only [hbrace, if_true]
      rfl
    | cons m kvs =>
      have htext : membersText l ((k, v) :: m :: kvs) ++ 0x7D :: rest =
          string k ++ l.key ++ (render l v ++ cp ',' ::
            (itemGap ++ (membersText l (m :: kvs) ++ 0x7D :: rest))) := by
        rw [membersText_cons, marks.item_eq]
        simp
      have hsolid : Solid (membersText l (m :: kvs) ++ 0x7D :: rest) := by
        obtain ⟨t, ht⟩ := membersText_head l m kvs
        rw [ht]
        exact solid_cons rfl _
      have hgap := skipSpace_blank marks.item_blank hsolid
      have hcomma : ∀ t, skipSpace (cp ',' :: t) = cp ',' :: t := fun _ => rfl
      have hrest := ih (by simp) (fun x hx => hkeys x (List.mem_cons_of_mem _ hx))
        (fun x hx => hvalues x (List.mem_cons_of_mem _ hx)) n (by simp at hn ⊢; omega)
      have hbrace : cp ',' ≠ 0x7D := by decide
      rw [htext, readMembers, readKey_clean marks hk (hv.starts.solid _)]
      simp only [bind, Except.bind]
      rw [hv.reads _ (stops_cons _ (Or.inl rfl))]
      simp only [hcomma, if_neg hbrace, if_true, hgap, hrest]
      rfl

theorem length_le_membersText (marks : l.Marks itemGap keyGap) (kvs : List (Text × Json)) :
    kvs.length ≤ (membersText l kvs).length + 1 := by
  induction kvs with
  | nil => exact Nat.zero_le _
  | cons m kvs ih =>
    obtain ⟨k, v⟩ := m
    cases kvs with
    | nil => simp
    | cons m kvs =>
      rw [membersText_cons, marks.item_eq]
      simp only [List.length_append, List.length_cons] at ih ⊢
      omega

theorem insert_new {key : Text} (value : Json) {kvs : List (Text × Json)}
    (h : key ∉ kvs.map Prod.fst) : insert key value kvs = kvs ++ [(key, value)] := by
  induction kvs with
  | nil => rfl
  | cons m kvs ih =>
    obtain ⟨k, v⟩ := m
    rw [List.map_cons, List.mem_cons, not_or] at h
    rw [insert, if_neg (Ne.symm h.1), ih h.2]
    rfl

/-- An object of different keys is made of its members in order. -/
theorem objectOf_nodup {kvs : List (Text × Json)} (h : (kvs.map Prod.fst).Nodup) :
    objectOf kvs = .object kvs := by
  suffices hall : ∀ before : List (Text × Json), ((before ++ kvs).map Prod.fst).Nodup →
      kvs.foldl (fun o m => insert m.1 m.2 o) before = before ++ kvs from
    congrArg Json.object (hall [] h)
  induction kvs with
  | nil => simp
  | cons m kvs ih =>
    intro before hnodup
    have hnew : m.1 ∉ before.map Prod.fst := by
      rw [List.map_append, List.map_cons, List.nodup_append] at hnodup
      exact fun hm => hnodup.2.2 m.1 hm m.1 (List.mem_cons_self ..) rfl
    have hmore : ((before ++ [m] ++ kvs).map Prod.fst).Nodup := by simpa using hnodup
    have hkvs : (kvs.map Prod.fst).Nodup := (List.nodup_cons.1 h).2
    rw [List.foldl_cons, insert_new m.2 hnew, ih hkvs _ hmore]
    simp

theorem object_reads (marks : l.Marks itemGap keyGap) {depth : Nat} {kvs : List (Text × Json)}
    (hnodup : (kvs.map Prod.fst).Nodup) (hkeys : ∀ m ∈ kvs, Clean m.1)
    (hvalues : ∀ m ∈ kvs, Reads l (readValue depth) m.2) :
    Reads l (readValue (depth + 1)) (.object kvs) := by
  constructor
  case starts => exact ⟨0x7B, _, rfl, by decide, by decide⟩
  case reads =>
    intro rest _
    have htext : render l (.object kvs) ++ rest = 0x7B :: (membersText l kvs ++ 0x7D :: rest) := by
      rw [render, membersText]
      simp
    have hvalue : readValue (depth + 1) (0x7B :: (membersText l kvs ++ 0x7D :: rest)) =
        readObject (readValue depth) (membersText l kvs ++ 0x7D :: rest) := by
      rw [readValue, if_neg (by decide), if_pos (Or.inl rfl)]
      rfl
    rw [htext, hvalue]
    cases kvs with
    | nil => rfl
    | cons m kvs =>
      have hcount : (m :: kvs).length ≤ (membersText l (m :: kvs) ++ 0x7D :: rest).length := by
        have hle := length_le_membersText marks (m :: kvs)
        simp only [List.length_append, List.length_cons] at hle ⊢
        omega
      have hmembers := readMembers_text marks (m :: kvs) (by simp) hkeys hvalues _ hcount rest
      obtain ⟨t, ht⟩ := membersText_head l m kvs
      have hskip : skipSpace (34 :: (t ++ 0x7D :: rest)) = 34 :: (t ++ 0x7D :: rest) := rfl
      rw [ht, List.cons_append] at hmembers ⊢
      rw [List.length_cons] at hmembers
      rw [readObject, hskip]
      dsimp only
      rw [if_neg (by decide), hmembers]
      simp only [bind, Except.bind, objectOf_nodup hnodup]
      rfl

/-- A value that is read from the front of a text is read from a text of its own. -/
theorem read_render (visible : l.Visible) {depth : Nat} {v : Json}
    (h : Reads l (readValue depth) v) : read depth (render l v) = .ok v := by
  have hread := h.reads [] (by simp [Stops])
  have hskip := skipSpace_solid (h.starts.solid [])
  rw [List.append_nil] at hread hskip
  have hmark : (render l v).head? ≠ some 0xFEFF := by
    intro hm
    obtain ⟨-, hle⟩ := render_visible visible v 0xFEFF (List.mem_of_head? hm)
    exact absurd hle (by decide)
  rw [read, if_neg hmark, hskip, hread]
  rfl

end

end HostTelemetry.Json
