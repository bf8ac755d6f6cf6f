import HostTelemetry.Proofs.Json.Token

/-!
# Forms and their layouts

The form of a text is its tree of tokens; a layout puts blanks around them. Reading a text follows
the tokens of any form that it is a layout of, and whatever is read is a layout of some form. So
what is read does not depend on the blanks.
-/

set_option autoImplicit false

namespace HostTelemetry.Json

inductive Form
  | token (k : Token)
  | array (items : List Form)
  | object (members : List (Key × Form))

namespace Form

mutual

def tokens : Form → List Text
  | .token k => [k.text]
  | .array items => [cp '['] :: (itemTokens items ++ [[cp ']']])
  | .object members => [0x7B] :: (memberTokens members ++ [[0x7D]])

def itemTokens : List Form → List Text
  | [] => []
  | [f] => f.tokens
  | f :: g :: fs => f.tokens ++ [cp ','] :: itemTokens (g :: fs)

def memberTokens : List (Key × Form) → List Text
  | [] => []
  | [(k, f)] => k.text :: [cp ':'] :: f.tokens
  | (k, f) :: m :: ms => k.text :: [cp ':'] :: f.tokens ++ [cp ','] :: memberTokens (m :: ms)

end

def memberValue (value : Form → Scan Json) (m : Key × Form) : Scan (Text × Json) :=
  (value m.2).map fun v => (m.1.name, v)

def value : (depth : Nat) → Form → Scan Json
  | _, .token k => .ok k.value
  | 0, _ => .error (.fault .tooDeep)
  | depth + 1, .array items => (items.mapM (value depth)).map .array
  | depth + 1, .object members => (members.mapM (memberValue (value depth))).map objectOf

end Form

open Form (itemTokens memberTokens memberValue)

/-- Tokens in order, with blanks around them. -/
inductive Laid : List Text → Text → Prop
  | nil {w : Text} (blank : Blank w) : Laid [] w
  | cons {w token t : Text} {ts : List Text} (blank : Blank w) (rest : Laid ts t) :
    Laid (token :: ts) (w ++ (token ++ t))

namespace Laid

variable {token t : Text} {ts us : List Text}

theorem front (h : Laid ts t) (token : Text) : Laid (token :: ts) (token ++ t) :=
  cons (w := []) (by simp [Blank]) h

theorem skip (h : Laid (token :: ts) t) (hsolid : ∀ more, Solid (token ++ more)) :
    ∃ rest, Laid ts rest ∧ skipSpace t = token ++ rest := by
  cases h with
  | cons blank rest => exact ⟨_, rest, skipSpace_blank blank (hsolid _)⟩

theorem mark {c : CodePoint} (h : Laid ([c] :: ts) t) (hc : isSpace c = false) :
    ∃ rest, Laid ts rest ∧ skipSpace t = c :: rest := h.skip (solid_cons hc)

theorem of_skipSpace (h : Laid ts (skipSpace t)) : Laid ts t := by
  have hblank : Blank (t.takeWhile isSpace) := fun c hc => List.mem_takeWhile_imp hc
  have ht : t = t.takeWhile isSpace ++ skipSpace t := List.takeWhile_append_dropWhile.symm
  rw [ht]
  generalize skipSpace t = more at h
  cases h with
  | nil blank => exact nil fun c hc => (List.mem_append.1 hc).elim (hblank c) (blank c)
  | cons blank rest =>
    rw [← List.append_assoc]
    exact cons (fun c hc => (List.mem_append.1 hc).elim (hblank c) (blank c)) rest

theorem spaced {w : Text} (hw : Blank w) (ts : List Text) :
    Laid ts (ts.flatMap fun token => w ++ token) := by
  induction ts with
  | nil => exact nil (by simp [Blank])
  | cons token ts ih =>
    rw [List.flatMap_cons, List.append_assoc]
    exact cons hw ih

theorem drop (h : Laid (ts ++ us) t) : ∃ rest, Laid us rest ∧ rest.length ≤ t.length := by
  induction ts generalizing t with
  | nil => exact ⟨t, h, Nat.le_refl _⟩
  | cons token ts ih =>
    cases h with
    | cons blank rest =>
      obtain ⟨left, hus, hle⟩ := ih rest
      refine ⟨left, hus, Nat.le_trans hle ?_⟩
      simp only [List.length_append]
      omega

theorem past {c : CodePoint} (h : Laid (ts ++ [c] :: us) t) :
    ∃ rest, Laid us rest ∧ rest.length < t.length := by
  obtain ⟨more, hmore, hle⟩ := h.drop
  cases hmore with
  | cons blank rest =>
    refine ⟨_, rest, Nat.lt_of_lt_of_le ?_ hle⟩
    simp only [List.length_append, List.length_cons]
    omega

end Laid

def Ends (us : List Text) : Prop :=
  ∀ token, us.head? = some token → token = [cp ','] ∨ token = [cp ']'] ∨ token = [0x7D]

theorem Laid.stops {us : List Text} {t : Text} (h : Laid us t) (hends : Ends us) : Stops t := by
  have hspace : ∀ {w : Text}, Blank w → ∀ c, w.head? = some c →
      CodePoint.isDigit c = false ∧ c ≠ cp '.' ∧ c ≠ cp 'e' ∧ c ≠ cp 'E' := by
    intro w hw c hc
    have hblank := hw c (List.mem_of_head? hc)
    simp only [isSpace, Bool.or_eq_true, decide_eq_true_eq] at hblank
    rcases hblank with ((rfl | rfl) | rfl) | rfl <;> decide
  cases h with
  | nil blank => exact fun c hc => hspace blank c hc
  | cons blank rest =>
    intro c hc
    obtain hc | hc := head?_append_cases hc
    · exact hspace blank c hc
    · rcases hends _ rfl with rfl | rfl | rfl
      · exact stops_cons _ (Or.inl rfl) c hc
      · exact stops_cons _ (Or.inr (Or.inl rfl)) c hc
      · exact stops_cons _ (Or.inr (Or.inr rfl)) c hc

/-- A reader of values reads the value of a form from any text that begins with its tokens. -/
def Follows (item : Text → Scan (Json × Text)) (value : Form → Scan Json) : Prop :=
  ∀ (f : Form) (us : List Text) (t : Text), Laid (f.tokens ++ us) t → Ends us →
    ∃ rest, Laid us rest ∧ item (skipSpace t) = (value f).map fun v => (v, rest)

theorem Form.tokens_head (f : Form) : ∃ token ts, f.tokens = token :: ts ∧ Starts token := by
  cases f with
  | token k => exact ⟨_, _, Form.tokens.eq_1 k, k.starts⟩
  | array items => exact ⟨_, _, Form.tokens.eq_2 items, _, _, rfl, by decide, by decide⟩
  | object members => exact ⟨_, _, Form.tokens.eq_3 members, _, _, rfl, by decide, by decide⟩

theorem itemTokens_head (f : Form) (fs : List Form) :
    ∃ token ts, itemTokens (f :: fs) = token :: ts ∧ Starts token := by
  obtain ⟨token, ts, hf, hstarts⟩ := f.tokens_head
  cases fs with
  | nil => exact ⟨token, ts, by rw [itemTokens, hf], hstarts⟩
  | cons g fs => exact ⟨token, _, by rw [itemTokens, hf, List.cons_append], hstarts⟩

theorem memberTokens_head (m : Key × Form) (ms : List (Key × Form)) :
    ∃ ts, memberTokens (m :: ms) = m.1.text :: ts := by
  obtain ⟨k, f⟩ := m
  cases ms with
  | nil => exact ⟨_, by rw [memberTokens]⟩
  | cons g ms => exact ⟨_, by rw [memberTokens, List.cons_append]⟩

section

variable {item : Text → Scan (Json × Text)} {value : Form → Scan Json} {us : List Text} {t : Text}

theorem items_length (f : Form) (fs : List Form)
    (h : Laid (itemTokens (f :: fs) ++ [cp ']'] :: us) t) : fs.length < t.length := by
  induction fs generalizing f t with
  | nil =>
    obtain ⟨more, -, hlt⟩ := h.past
    exact Nat.zero_lt_of_lt hlt
  | cons g fs ih =>
    rw [itemTokens, List.append_assoc, List.cons_append] at h
    obtain ⟨more, hmore, hlt⟩ := h.past
    exact Nat.lt_of_le_of_lt (ih g hmore) hlt

theorem readItems_laid (hitem : Follows item value) (f : Form) (fs : List Form) {n : Nat}
    (hn : fs.length < n) (h : Laid (itemTokens (f :: fs) ++ [cp ']'] :: us) t) :
    ∃ rest, Laid us rest ∧
      readItems item n (skipSpace t) = ((f :: fs).mapM value).map fun vs => (vs, rest) := by
  induction fs generalizing f n t with
  | nil =>
    obtain ⟨n, rfl⟩ : ∃ j, n = j + 1 := ⟨n - 1, by omega⟩
    rw [itemTokens] at h
    obtain ⟨rest, hrest, hread⟩ := hitem f _ t h (by simp [Ends])
    obtain ⟨more, hmore, hskip⟩ := hrest.mark rfl
    refine ⟨more, hmore, ?_⟩
    rw [readItems, hread, List.mapM_cons, List.mapM_nil]
    rcases value f with e | v
    · rfl
    · simp only [Except.map, bind, Except.bind, hskip, if_true]
      rfl
  | cons g fs ih =>
    obtain ⟨n, rfl⟩ : ∃ j, n = j + 1 := ⟨n - 1, by omega⟩
    rw [itemTokens, List.append_assoc, List.cons_append] at h
    obtain ⟨rest, hrest, hread⟩ := hitem f _ t h (by simp [Ends])
    obtain ⟨more, hmore, hskip⟩ := hrest.mark rfl
    obtain ⟨left, hleft, hitems⟩ := ih g (by simpa using hn) hmore
    refine ⟨left, hleft, ?_⟩
    have hcomma : cp ',' ≠ cp ']' := by decide
    rw [readItems, hread, List.mapM_cons]
    rcases value f with e | v
    · rfl
    · simp only [Except.map, bind, Except.bind, hskip, if_neg hcomma, if_true, hitems]
      rcases (g :: fs).mapM value with e | vs <;> rfl

theorem readKey_laid {k : Key} (h : Laid (k.text :: [cp ':'] :: us) t) :
    ∃ rest, Laid us rest ∧ readKey (skipSpace t) = .ok (k.name, skipSpace rest) := by
  obtain ⟨body, htext, hstring⟩ := k.opens
  rw [htext] at h
  obtain ⟨more, hmore, hskip⟩ := h.skip (solid_cons rfl)
  obtain ⟨rest, hrest, hcolon⟩ := hmore.mark rfl
  refine ⟨rest, hrest, ?_⟩
  have hbody : 34 :: (body ++ [34]) ++ more = 34 :: (body ++ 34 :: more) := by simp
  have hread := hstring (34 :: (body ++ 34 :: more)) ((body ++ 34 :: more).length + 1) more
    (by simp only [List.length_append]; omega)
  rw [hskip, hbody, readKey]
  dsimp only
  rw [if_pos rfl, hread]
  simp only [bind, Except.bind, hcolon, if_true]
  rfl

theorem members_length (m : Key × Form) (ms : List (Key × Form))
    (h : Laid (memberTokens (m :: ms) ++ [0x7D] :: us) t) : ms.length < t.length := by
  induction ms generalizing m t with
  | nil =>
    obtain ⟨more, -, hlt⟩ := h.past
    exact Nat.zero_lt_of_lt hlt
  | cons g ms ih =>
    rw [memberTokens, List.append_assoc] at h
    obtain ⟨more, hmore, hlt⟩ := h.past
    exact Nat.lt_of_le_of_lt (ih g hmore) hlt

theorem readMembers_laid (hitem : Follows item value) (m : Key × Form) (ms : List (Key × Form))
    {n : Nat} (hn : ms.length < n) (h : Laid (memberTokens (m :: ms) ++ [0x7D] :: us) t) :
    ∃ rest, Laid us rest ∧ readMembers item n (skipSpace t) =
      ((m :: ms).mapM (memberValue value)).map fun kvs => (kvs, rest) := by
  induction ms generalizing m n t with
  | nil =>
    obtain ⟨n, rfl⟩ : ∃ j, n = j + 1 := ⟨n - 1, by omega⟩
    obtain ⟨k, f⟩ := m
    rw [memberTokens] at h
    obtain ⟨start, hstart, hkey⟩ := readKey_laid h
    obtain ⟨rest, hrest, hread⟩ := hitem f _ start hstart (by simp [Ends])
    obtain ⟨more, hmore, hskip⟩ := hrest.mark rfl
    refine ⟨more, hmore, ?_⟩
    rw [readMembers, hkey, List.mapM_cons, List.mapM_nil, memberValue]
    simp only [bind, Except.bind, hread]
    rcases value f with e | v
    · rfl
    · simp only [Except.map, hskip, if_true]
      rfl
  | cons g ms ih =>
    obtain ⟨n, rfl⟩ : ∃ j, n = j + 1 := ⟨n - 1, by omega⟩
    obtain ⟨k, f⟩ := m
    rw [memberTokens, List.append_assoc, List.cons_append] at h
    obtain ⟨start, hstart, hkey⟩ := readKey_laid h
    obtain ⟨rest, hrest, hread⟩ := hitem f _ start hstart (by simp [Ends])
    obtain ⟨more, hmore, hskip⟩ := hrest.mark rfl
    obtain ⟨left, hleft, hmembers⟩ := ih g (by simpa using hn) hmore
    refine ⟨left, hleft, ?_⟩
    have hcomma : cp ',' ≠ 0x7D := by decide
    rw [readMembers, hkey, List.mapM_cons, memberValue]
    simp only [bind, Except.bind, hread]
    rcases value f with e | v
    · rfl
    · simp only [Except.map, hskip, if_neg hcomma, if_true, hmembers]
      rcases (g :: ms).mapM (memberValue value) with e | kvs <;> rfl

theorem readArray_laid (hitem : Follows item value) (items : List Form)
    (h : Laid (itemTokens items ++ [cp ']'] :: us) t) :
    ∃ rest, Laid us rest ∧
      readArray item t = ((items.mapM value).map .array).map fun v => (v, rest) := by
  cases items with
  | nil =>
    rw [itemTokens] at h
    obtain ⟨rest, hrest, hskip⟩ := h.mark rfl
    refine ⟨rest, hrest, ?_⟩
    rw [readArray, hskip]
    rfl
  | cons f fs =>
    obtain ⟨token, ts, htokens, hstarts⟩ := itemTokens_head f fs
    have hfirst : Laid (token :: (ts ++ [cp ']'] :: us)) t := by rwa [htokens] at h
    obtain ⟨rest, hrest, hskip⟩ := hfirst.skip hstarts.solid
    have hskipped : Laid (itemTokens (f :: fs) ++ [cp ']'] :: us) (skipSpace t) := by
      rw [htokens, hskip]
      exact hrest.front token
    have hlength := items_length f fs hskipped
    obtain ⟨left, hleft, hread⟩ := readItems_laid hitem f fs hlength h
    refine ⟨left, hleft, ?_⟩
    obtain ⟨c, r, rfl, -, hc⟩ := hstarts
    rw [hskip, List.cons_append, List.length_cons] at hread
    rw [readArray, hskip, List.cons_append]
    dsimp only
    rw [if_neg hc, hread]
    rcases (f :: fs).mapM value with e | vs <;> rfl

theorem readObject_laid (hitem : Follows item value) (members : List (Key × Form))
    (h : Laid (memberTokens members ++ [0x7D] :: us) t) :
    ∃ rest, Laid us rest ∧ readObject item t =
      ((members.mapM (memberValue value)).map objectOf).map fun v => (v, rest) := by
  cases members with
  | nil =>
    rw [memberTokens] at h
    obtain ⟨rest, hrest, hskip⟩ := h.mark rfl
    refine ⟨rest, hrest, ?_⟩
    rw [readObject, hskip]
    rfl
  | cons m ms =>
    obtain ⟨ts, htokens⟩ := memberTokens_head m ms
    obtain ⟨r, hquote⟩ := m.1.starts
    have hsolid : ∀ more, Solid (m.1.text ++ more) := by
      rw [hquote]
      exact solid_cons rfl
    have hfirst : Laid (m.1.text :: (ts ++ [0x7D] :: us)) t := by rwa [htokens] at h
    obtain ⟨rest, hrest, hskip⟩ := hfirst.skip hsolid
    have hskipped : Laid (memberTokens (m :: ms) ++ [0x7D] :: us) (skipSpace t) := by
      rw [htokens, hskip]
      exact hrest.front m.1.text
    have hlength := members_length m ms hskipped
    obtain ⟨left, hleft, hread⟩ := readMembers_laid hitem m ms hlength h
    refine ⟨left, hleft, ?_⟩
    rw [hskip, hquote, List.cons_append, List.length_cons] at hread
    rw [readObject, hskip, hquote, List.cons_append]
    dsimp only
    rw [if_neg (by decide), hread]
    rcases (m :: ms).mapM (memberValue value) with e | kvs <;> rfl

end

theorem token_laid {k : Token} {us : List Text} {t : Text} (h : Laid (k.text :: us) t)
    (hends : Ends us) (depth : Nat) :
    ∃ rest, Laid us rest ∧ readValue depth (skipSpace t) = .ok (k.value, rest) := by
  obtain ⟨rest, hrest, hskip⟩ := h.skip k.starts.solid
  rw [hskip]
  exact ⟨rest, hrest, k.reads depth (hrest.stops hends)⟩

/-- Reading a text that begins with the tokens of a form gives the value of the form, or fails
because that lies too deep. -/
theorem readValue_follows (depth : Nat) : Follows (readValue depth) (Form.value depth) := by
  induction depth with
  | zero =>
    intro f us t h hends
    cases f with
    | token k =>
      rw [Form.tokens] at h
      exact token_laid h hends 0
    | array items =>
      rw [Form.tokens] at h
      obtain ⟨more, -, hskip⟩ := h.mark rfl
      obtain ⟨rest, hrest, -⟩ := h.drop
      exact ⟨rest, hrest, by rw [hskip]; rfl⟩
    | object members =>
      rw [Form.tokens] at h
      obtain ⟨more, -, hskip⟩ := h.mark rfl
      obtain ⟨rest, hrest, -⟩ := h.drop
      exact ⟨rest, hrest, by rw [hskip]; rfl⟩
  | succ depth ih =>
    intro f us t h hends
    cases f with
    | token k =>
      rw [Form.tokens] at h
      exact token_laid h hends (depth + 1)
    | array items =>
      rw [Form.tokens, List.cons_append, List.append_assoc] at h
      obtain ⟨more, hmore, hskip⟩ := h.mark rfl
      have hread : readValue (depth + 1) (cp '[' :: more) = readArray (readValue depth) more := rfl
      rw [hskip, hread]
      exact readArray_laid ih items hmore
    | object members =>
      rw [Form.tokens, List.cons_append, List.append_assoc] at h
      obtain ⟨more, hmore, hskip⟩ := h.mark rfl
      have hread : readValue (depth + 1) (0x7B :: more) = readObject (readValue depth) more := rfl
      rw [hskip, hread]
      exact readObject_laid ih members hmore

def Forms (item : Text → Scan (Json × Text)) (value : Form → Scan Json) : Prop :=
  ∀ (t rest : Text) (v : Json), item t = .ok (v, rest) →
    ∃ f : Form, value f = .ok v ∧ ∀ us, Laid us rest → Laid (f.tokens ++ us) t

theorem readKey_forms {t rest name : Text} (h : readKey t = .ok (name, rest)) :
    ∃ k : Key, k.name = name ∧ ∀ us, Laid us rest → Laid (k.text :: [cp ':'] :: us) t := by
  unfold readKey at h
  split at h
  · cases h
  · rename_i c r
    split at h
    · rename_i hquote
      obtain ⟨⟨s, left⟩, hs, h⟩ := bind_eq_ok h
      dsimp only at h
      split at h
      · cases h
      · rename_i d more hskip
        split at h
        · rename_i hcolon
          cases h
          obtain ⟨k, htext, hname⟩ := Key.of_read hs
          refine ⟨k, hname, fun us hus => ?_⟩
          rw [hquote, htext]
          apply Laid.front
          apply Laid.of_skipSpace
          rw [hskip, hcolon]
          exact hus.of_skipSpace.front [cp ':']
        · cases h
    · cases h

section

variable {item : Text → Scan (Json × Text)} {value : Form → Scan Json} {t rest : Text} {n : Nat}

theorem readItems_forms (hitem : Forms item value) {vs : List Json}
    (h : readItems item n t = .ok (vs, rest)) :
    ∃ f fs, (f :: fs).mapM value = .ok vs ∧
      ∀ us, Laid us rest → Laid (itemTokens (f :: fs) ++ [cp ']'] :: us) t := by
  induction n generalizing t vs with
  | zero => cases h
  | succ n ih =>
    rw [readItems] at h
    obtain ⟨⟨v, left⟩, hv, h⟩ := bind_eq_ok h
    obtain ⟨f, hf, hlaid⟩ := hitem t left v hv
    dsimp only at h
    split at h
    · cases h
    · rename_i c more hskip
      split at h
      · rename_i hc
        cases h
        refine ⟨f, [], by rw [List.mapM_cons, hf, List.mapM_nil]; rfl, fun us hus => ?_⟩
        rw [itemTokens]
        apply hlaid
        apply Laid.of_skipSpace
        rw [hskip, hc]
        exact hus.front [cp ']']
      · split at h
        · rename_i hc
          obtain ⟨⟨vs', rest'⟩, hvs, h⟩ := bind_eq_ok h
          cases h
          obtain ⟨g, fs, hfs, hmore⟩ := ih hvs
          refine ⟨f, g :: fs, by rw [List.mapM_cons, hf, hfs]; rfl, fun us hus => ?_⟩
          rw [itemTokens, List.append_assoc]
          apply hlaid
          apply Laid.of_skipSpace
          rw [hskip, hc]
          exact (hmore us hus).of_skipSpace.front [cp ',']
        · cases h

theorem readMembers_forms (hitem : Forms item value) {kvs : List (Text × Json)}
    (h : readMembers item n t = .ok (kvs, rest)) :
    ∃ m ms, (m :: ms).mapM (memberValue value) = .ok kvs ∧
      ∀ us, Laid us rest → Laid (memberTokens (m :: ms) ++ [0x7D] :: us) t := by
  induction n generalizing t kvs with
  | zero => cases h
  | succ n ih =>
    rw [readMembers] at h
    obtain ⟨⟨name, start⟩, hname, h⟩ := bind_eq_ok h
    obtain ⟨k, hk, hkey⟩ := readKey_forms hname
    obtain ⟨⟨v, left⟩, hv, h⟩ := bind_eq_ok h
    obtain ⟨f, hf, hlaid⟩ := hitem start left v hv
    have hmember : memberValue value (k, f) = .ok (name, v) := by rw [memberValue, hf, ← hk]; rfl
    dsimp only at h
    split at h
    · cases h
    · rename_i c more hskip
      split at h
      · rename_i hc
        cases h
        refine ⟨(k, f), [], by rw [List.mapM_cons, hmember, List.mapM_nil]; rfl, fun us hus => ?_⟩
        rw [memberTokens]
        apply hkey
        apply hlaid
        apply Laid.of_skipSpace
        rw [hskip, hc]
        exact hus.front [0x7D]
      · split at h
        · rename_i hc
          obtain ⟨⟨kvs', rest'⟩, hkvs, h⟩ := bind_eq_ok h
          cases h
          obtain ⟨m, ms, hms, hmore⟩ := ih hkvs
          refine ⟨(k, f), m :: ms, by rw [List.mapM_cons, hmember, hms]; rfl, fun us hus => ?_⟩
          rw [memberTokens, List.append_assoc]
          apply hkey
          apply hlaid
          apply Laid.of_skipSpace
          rw [hskip, hc]
          exact (hmore us hus).of_skipSpace.front [cp ',']
        · cases h

theorem readArray_forms (hitem : Forms item value) {v : Json}
    (h : readArray item t = .ok (v, rest)) :
    ∃ items, (items.mapM value).map .array = .ok v ∧
      ∀ us, Laid us rest → Laid (itemTokens items ++ [cp ']'] :: us) t := by
  unfold readArray at h
  split at h
  · cases h
  · rename_i c r hskip
    split at h
    · rename_i hc
      cases h
      refine ⟨[], rfl, fun us hus => ?_⟩
      rw [itemTokens]
      apply Laid.of_skipSpace
      rw [hskip, hc]
      exact hus.front [cp ']']
    · obtain ⟨⟨vs, left⟩, hvs, h⟩ := bind_eq_ok h
      cases h
      obtain ⟨f, fs, hfs, hlaid⟩ := readItems_forms hitem hvs
      refine ⟨f :: fs, by rw [hfs]; rfl, fun us hus => ?_⟩
      apply Laid.of_skipSpace
      rw [hskip]
      exact hlaid us hus

theorem readObject_forms (hitem : Forms item value) {v : Json}
    (h : readObject item t = .ok (v, rest)) :
    ∃ members, (members.mapM (memberValue value)).map objectOf = .ok v ∧
      ∀ us, Laid us rest → Laid (memberTokens members ++ [0x7D] :: us) t := by
  unfold readObject at h
  split at h
  · cases h
  · rename_i c r hskip
    split at h
    · rename_i hc
      cases h
      refine ⟨[], rfl, fun us hus => ?_⟩
      rw [memberTokens]
      apply Laid.of_skipSpace
      rw [hskip, hc]
      exact hus.front [0x7D]
    · obtain ⟨⟨kvs, left⟩, hkvs, h⟩ := bind_eq_ok h
      cases h
      obtain ⟨m, ms, hms, hlaid⟩ := readMembers_forms hitem hkvs
      refine ⟨m :: ms, by rw [hms]; rfl, fun us hus => ?_⟩
      apply Laid.of_skipSpace
      rw [hskip]
      exact hlaid us hus

end

theorem token_forms {depth : Nat} {c : CodePoint} {r rest : Text} {v : Json}
    (h : readValue depth (c :: r) = .ok (v, rest)) (hc : ¬(c = 0x7B ∨ c = cp '[')) :
    ∃ f : Form, f.value depth = .ok v ∧
      ∀ us, Laid us rest → Laid (f.tokens ++ us) (c :: r) := by
  obtain ⟨k, htext, hvalue⟩ := Token.of_read h fun d hd => by
    obtain rfl : c = d := by simpa using hd
    exact hc
  refine ⟨.token k, by rw [← hvalue, Form.value], fun us hus => ?_⟩
  rw [Form.tokens, htext]
  exact hus.front k.text

/-- Whatever is read is the value of a form, and its text is a layout of the tokens. -/
theorem readValue_forms (depth : Nat) : Forms (readValue depth) (Form.value depth) := by
  induction depth with
  | zero =>
    intro t rest v h
    cases t with
    | nil => cases h
    | cons c r =>
      refine token_forms h ?_
      rintro (rfl | rfl) <;> cases h
  | succ depth ih =>
    intro t rest v h
    cases t with
    | nil => cases h
    | cons c r =>
      by_cases hbracket : c = cp '['
      · subst hbracket
        obtain ⟨items, hvalue, hlaid⟩ := readArray_forms ih (t := r) h
        refine ⟨.array items, hvalue, fun us hus => ?_⟩
        rw [Form.tokens, List.cons_append, List.append_assoc]
        exact (hlaid us hus).front [cp '[']
      · by_cases hbrace : c = 0x7B
        · subst hbrace
          obtain ⟨members, hvalue, hlaid⟩ := readObject_forms ih (t := r) h
          refine ⟨.object members, hvalue, fun us hus => ?_⟩
          rw [Form.tokens, List.cons_append, List.append_assoc]
          exact (hlaid us hus).front [0x7B]
        · exact token_forms h (not_or.2 ⟨hbrace, hbracket⟩)

theorem names_of_value {value : Form → Scan Json} {members : List (Key × Form)}
    {kvs : List (Text × Json)} (h : members.mapM (memberValue value) = .ok kvs) :
    kvs.map Prod.fst = members.map fun m => m.1.name := by
  have hall := mapM_eq_ok_iff.1 h
  clear h
  induction hall with
  | nil => rfl
  | cons hm _ ih =>
    obtain ⟨v, -, rfl⟩ := map_eq_ok.1 hm
    rw [List.map_cons, List.map_cons, ih]

theorem Laid.no_mark {members : List (Key × Form)} {t : Text}
    (h : Laid (Form.object members).tokens t) : t.head? ≠ some 0xFEFF := by
  intro hmark
  rw [Form.tokens] at h
  generalize memberTokens members ++ [[0x7D]] = ts at h
  cases h with
  | cons blank rest =>
    obtain hmark | hmark := head?_append_cases hmark
    · have hspace := blank _ (List.mem_of_head? hmark)
      exact absurd hspace (by decide)
    · cases hmark

theorem read_laid {members : List (Key × Form)} {t : Text}
    (h : Laid (Form.object members).tokens t) (depth : Nat) (v : Json) :
    read depth t = .ok v ↔ (Form.object members).value depth = .ok v := by
  obtain ⟨rest, hrest, hread⟩ := readValue_follows depth (.object members) [] t
    (by rwa [List.append_nil]) (by simp [Ends])
  have hend : skipSpace rest = [] := by
    cases hrest with
    | nil blank => exact List.dropWhile_eq_nil_iff.2 blank
  rw [read]
  simp only [if_neg h.no_mark, hread]
  rcases (Form.object members).value depth with e | x
  · simp [Except.map]
  · simp [Except.map, hend]

/-- A text of an object is a layout of members. -/
theorem exists_laid {depth : Nat} {t : Text} {kvs : List (Text × Json)}
    (h : read depth t = .ok (.object kvs)) :
    ∃ members, Laid (Form.object members).tokens t := by
  unfold read at h
  dsimp only at h
  split at h
  · cases h
  · split at h
    · cases h
    · rename_i v rest hread
      split at h
      · rename_i hend
        cases h
        obtain ⟨f, hvalue, hlaid⟩ := readValue_forms depth _ _ _ hread
        have hrest : Laid [] rest := .nil (List.dropWhile_eq_nil_iff.1 hend)
        have htext := (hlaid [] hrest).of_skipSpace
        rw [List.append_nil] at htext
        cases f with
        | object members => exact ⟨members, htext⟩
        | token k =>
          rw [Form.value] at hvalue
          obtain ⟨s, hs⟩ | hbare := k.value_cases
          · rw [hs] at hvalue
            cases hvalue
          · rw [Except.ok.inj hvalue] at hbare
            cases hbare
        | array items =>
          cases depth with
          | zero => cases hvalue
          | succ depth =>
            obtain ⟨vs, -, hvs⟩ := map_eq_ok.1 hvalue
            cases hvs
      · cases h

end HostTelemetry.Json
