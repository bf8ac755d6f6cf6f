import HostTelemetry.Json.Printer
import HostTelemetry.Json.Reader
import HostTelemetry.Proofs.Double.Shortest

/-!
# Doubles in JSON

The text of a finite double is a sign, a whole part without a leading zero, and a fraction or an
exponent. Reading it in front of anything that cannot belong to a number gives the double again,
with the sign of a zero.
-/

set_option autoImplicit false

namespace HostTelemetry.Json

open Text (digit span_append all_isDigit_map map_digit_sub)

def Stops (rest : Text) : Prop :=
  ∀ c, rest.head? = some c →
    CodePoint.isDigit c = false ∧ c ≠ cp '.' ∧ c ≠ cp 'e' ∧ c ≠ cp 'E'

def pointed (ds : List Nat) : Text := if ds.isEmpty then [] else cp '.' :: ds.map digit

def minus (negative : Bool) : Text := if negative then [cp '-'] else []

/-- A zero alone, or digits that begin with no zero. -/
def Leads (ds : List Nat) : Prop := ds = [0] ∨ ∃ c cs, ds = c :: cs ∧ c ≠ 0

theorem Leads.ne_nil {ds : List Nat} (h : Leads ds) : ds ≠ [] := by
  rcases h with rfl | ⟨c, cs, rfl, -⟩ <;> simp

theorem wholeOf_digits {ds : List Nat} {t : Text} (hds : ∀ d ∈ ds, d < 10) (hlead : Leads ds)
    (ht : ∀ c, t.head? = some c → CodePoint.isDigit c = false) :
    wholeOf (ds.map digit ++ t) = (ds.map digit, t) := by
  rcases hlead with rfl | ⟨c, cs, rfl, hc⟩
  · rfl
  · have hspan := span_append CodePoint.isDigit (all_isDigit_map hds) ht
    have hne : digit c ≠ cp '0' := by
      rw [Text.digit_range (hds c (List.mem_cons_self ..))]
      show 48 + c ≠ 48
      omega
    rw [List.map_cons, List.cons_append] at hspan ⊢
    rw [wholeOf, if_neg hne, hspan.1, hspan.2]

theorem fractionOf_pointed {ds : List Nat} {t : Text} (hds : ∀ d ∈ ds, d < 10)
    (ht : ∀ c, t.head? = some c → CodePoint.isDigit c = false ∧ c ≠ cp '.') :
    fractionOf (pointed ds ++ t) = (ds.map digit, t) := by
  cases ds with
  | nil =>
    match t with
    | [] => rfl
    | [c] => rfl
    | c :: d :: t =>
      have hc := (ht c rfl).2
      simp [pointed, fractionOf, hc]
  | cons d ds =>
    have hd := Text.isDigit_digit (hds d (List.mem_cons_self ..))
    have hspan := span_append CodePoint.isDigit (all_isDigit_map hds) fun c hc => (ht c hc).1
    rw [List.map_cons, List.cons_append] at hspan
    have htext : pointed (d :: ds) ++ t = cp '.' :: digit d :: (ds.map digit ++ t) := by
      simp [pointed]
    rw [htext, fractionOf, if_pos ⟨rfl, hd⟩, hspan.1, hspan.2]
    rfl

theorem exponentOf_stops {rest : Text} (h : Stops rest) : exponentOf rest = (none, rest) := by
  cases rest with
  | nil => rfl
  | cons c rest =>
    obtain ⟨-, -, he, hE⟩ := h c rfl
    simp [exponentOf, he, hE]

theorem exponentOf_exponentText (e : Int) {rest : Text} (h : Stops rest) :
    exponentOf (Decimal.exponentText e ++ rest) = (some e, rest) := by
  have hspan := span_append CodePoint.isDigit (Text.padded_isDigit 2 e.natAbs)
    fun c hc => (h c hc).1
  have hvalue := Text.digitsValue_padded 2 e.natAbs
  have hne : (Text.padded 2 e.natAbs).isEmpty = false := by
    have hlength := Text.le_padded_length 2 e.natAbs
    rw [List.isEmpty_eq_false_iff_exists_mem]
    exact List.exists_mem_of_length_pos (by omega)
  unfold Decimal.exponentText
  generalize Text.padded 2 e.natAbs = ds at *
  by_cases hneg : e < 0
  · have htext : (if e < 0 then lit "e-" else lit "e+") ++ ds ++ rest =
        cp 'e' :: cp '-' :: (ds ++ rest) := by rw [if_pos hneg]; rfl
    have hsigned : Text.signed (cp '-' :: (ds ++ rest)) = (true, ds ++ rest) := rfl
    rw [htext, exponentOf, if_pos (Or.inl rfl), hsigned]
    dsimp only
    rw [hspan.1, hspan.2, hne, hvalue]
    have habs : -(e.natAbs : Int) = e := by omega
    rw [if_neg Bool.false_ne_true, if_pos rfl, habs]
  · have htext : (if e < 0 then lit "e-" else lit "e+") ++ ds ++ rest =
        cp 'e' :: cp '+' :: (ds ++ rest) := by rw [if_neg hneg]; rfl
    have hsigned : Text.signed (cp '+' :: (ds ++ rest)) = (false, ds ++ rest) := rfl
    rw [htext, exponentOf, if_pos (Or.inl rfl), hsigned]
    dsimp only
    rw [hspan.1, hspan.2, hne, hvalue]
    have habs : (e.natAbs : Int) = e := by omega
    rw [if_neg Bool.false_ne_true, if_neg Bool.false_ne_true, habs]

theorem minus_head (negative : Bool) {body : Text} (h : body.head? ≠ some (cp '-')) :
    decide ((minus negative ++ body).head? = some (cp '-')) = negative := by
  cases negative with
  | true => rfl
  | false => exact decide_eq_false h

theorem minus_drop (negative : Bool) {body : Text} (h : body.head? ≠ some (cp '-')) :
    (if (minus negative ++ body).head? = some (cp '-') then (minus negative ++ body).drop 1
      else minus negative ++ body) = body := by
  cases negative with
  | true => exact if_pos rfl
  | false => exact if_neg h

/-- A number with a fraction or an exponent is a double. -/
theorem readNumber_parts (negative : Bool) {whole fraction : List Nat} {e : Option Int}
    {t rest : Text} (hwhole : ∀ d ∈ whole, d < 10) (hlead : Leads whole)
    (hfraction : ∀ d ∈ fraction, d < 10)
    (ht : ∀ c, t.head? = some c → CodePoint.isDigit c = false ∧ c ≠ cp '.')
    (he : exponentOf t = (e, rest)) (hdouble : fraction ≠ [] ∨ e ≠ none) :
    readNumber (minus negative ++ (whole.map digit ++ (pointed fraction ++ t))) =
      .ok (.double (Double.ofDecimal negative ⟨whole ++ fraction, whole.length + e.getD 0⟩),
        rest) := by
  have hnext : ∀ c, (pointed fraction ++ t).head? = some c → CodePoint.isDigit c = false := by
    cases fraction with
    | nil => exact fun c hc => (ht c hc).1
    | cons d ds =>
      intro c hc
      obtain rfl : cp '.' = c := by simpa [pointed] using hc
      rfl
  have hbody := wholeOf_digits hwhole hlead hnext
  have hsign : (whole.map digit ++ (pointed fraction ++ t)).head? ≠ some (cp '-') := by
    obtain ⟨c, cs, rfl⟩ := List.exists_cons_of_ne_nil hlead.ne_nil
    intro hr
    have hc : digit c = cp '-' := by simpa using hr
    rw [Text.digit_range (hwhole c (List.mem_cons_self ..))] at hc
    have : 48 + c = 45 := hc
    omega
  have hempty : (whole.map digit).isEmpty = false := by
    simpa using hlead.ne_nil
  have hkind : ¬((fraction.map digit).isEmpty ∧ e.isNone) := by
    simpa [imp_iff_not_or] using hdouble
  have hdigits : (whole.map digit ++ fraction.map digit).map (· - cp '0') = whole ++ fraction := by
    rw [List.map_append, map_digit_sub hwhole, map_digit_sub hfraction]
  unfold readNumber
  dsimp only
  rw [minus_drop negative hsign, minus_head negative hsign, hbody]
  dsimp only
  rw [hempty, if_neg Bool.false_ne_true, fractionOf_pointed hfraction ht]
  dsimp only
  rw [he]
  dsimp only
  rw [if_neg hkind, hdigits, List.length_map]

def exponentPart : Option Int → Text
  | none => []
  | some e => Decimal.exponentText e

theorem exponentOf_exponentPart (e : Option Int) {rest : Text} (h : Stops rest) :
    exponentOf (exponentPart e ++ rest) = (e, rest) := by
  cases e with
  | none => exact exponentOf_stops h
  | some e => exact exponentOf_exponentText e h

theorem exponentPart_head (e : Option Int) {rest : Text} (h : Stops rest) :
    ∀ c, (exponentPart e ++ rest).head? = some c →
      CodePoint.isDigit c = false ∧ c ≠ cp '.' := by
  intro c hc
  cases e with
  | none => exact ⟨(h c hc).1, (h c hc).2.1⟩
  | some e =>
    obtain rfl : 101 = c := by
      by_cases hneg : e < 0
      · simpa [exponentPart, Decimal.exponentText, hneg, lit] using hc
      · simpa [exponentPart, Decimal.exponentText, hneg, lit] using hc
    decide

/-- A text of a decimal that denotes a number: its parts denote the same number. -/
structure Parts (text : Text) (u : Nat) (whole fraction : List Nat) (e : Option Int) : Prop where
  text_eq : text = whole.map digit ++ pointed fraction ++ exponentPart e
  whole_lt : ∀ d ∈ whole, d < 10
  leads : Leads whole
  fraction_lt : ∀ d ∈ fraction, d < 10
  double : fraction ≠ [] ∨ e ≠ none
  units : Double.unitsOf (Digits.value 10 (whole ++ fraction))
    (whole.length + e.getD 0 - (whole ++ fraction).length) = u

theorem scientific_parts {d : Decimal} {u : Nat} (h : Double.Denotes d u) :
    ∃ whole fraction e, Parts d.scientific u whole fraction e := by
  obtain ⟨c, cs, hdigits, hc⟩ := h.head
  have hlt := h.digits_lt
  have hunits := h.units
  rw [hdigits] at hlt hunits
  have hparts : Parts d.scientific u [c] cs (some (d.point - 1)) := by
    constructor
    case text_eq => simp [Decimal.scientific, hdigits, pointed, exponentPart]
    case whole_lt => exact fun x hx => hlt x (by simp_all)
    case leads => exact Or.inr ⟨c, [], rfl, hc⟩
    case fraction_lt => exact fun x hx => hlt x (by simp [hx])
    case double => exact Or.inr (by simp)
    case units => simpa using hunits
  exact ⟨_, _, _, hparts⟩

theorem pointed_of_ne_nil {ds : List Nat} (h : ds ≠ []) : pointed ds = cp '.' :: ds.map digit := by
  rw [pointed, if_neg]
  simpa using h

theorem zeros_lt (k : Nat) : ∀ x ∈ List.replicate k 0, x < 10 := by
  intro x hx
  rw [List.eq_of_mem_replicate hx]
  decide

theorem map_zeros (k : Nat) : (List.replicate k 0).map digit = List.replicate k (cp '0') :=
  List.map_replicate

theorem below_parts {d : Decimal} {u : Nat} (h : Double.Denotes d u) (hpoint : d.point ≤ 0) :
    Parts (d.positional numberFormat) u [0] (List.replicate d.point.natAbs 0 ++ d.digits) none := by
  obtain ⟨c, cs, hdigits, hc⟩ := h.head
  have hne : List.replicate d.point.natAbs 0 ++ d.digits ≠ [] := by simp [hdigits]
  constructor
  case text_eq =>
    rw [pointed_of_ne_nil hne, List.map_append, map_zeros, Decimal.positional, if_pos hpoint]
    simp [exponentPart, lit, digit]
    exact ⟨rfl, rfl⟩
  case whole_lt => simp
  case leads => exact Or.inl rfl
  case fraction_lt =>
    intro x hx
    rcases List.mem_append.1 hx with hx | hx
    · exact zeros_lt _ x hx
    · exact h.digits_lt x hx
  case double => exact Or.inl hne
  case units =>
    have hvalue : Digits.value 10 ([0] ++ (List.replicate d.point.natAbs 0 ++ d.digits)) =
        Digits.value 10 d.digits := by
      rw [Digits.value_append, Digits.value_zeros_append]
      simp [Digits.value]
    rw [hvalue, ← h.units]
    congr 1
    simp only [List.length_append, List.length_replicate, List.length_cons, List.length_nil,
      Option.getD_none]
    omega

theorem between_parts {d : Decimal} {u : Nat} (h : Double.Denotes d u) (hpoint : ¬d.point ≤ 0)
    (hshort : d.point.natAbs < d.digits.length) :
    Parts (d.positional numberFormat) u (d.digits.take d.point.natAbs)
      (d.digits.drop d.point.natAbs) none := by
  obtain ⟨c, cs, hdigits, hc⟩ := h.head
  have hne : d.digits.drop d.point.natAbs ≠ [] := by simpa using hshort
  constructor
  case text_eq =>
    rw [pointed_of_ne_nil hne, Decimal.positional, if_neg hpoint]
    dsimp only
    rw [List.length_map, if_pos hshort, List.map_take, List.map_drop]
    exact (List.append_nil _).symm
  case whole_lt => exact fun x hx => h.digits_lt x (List.mem_of_mem_take hx)
  case leads =>
    have hpos : d.point.natAbs = d.point.natAbs - 1 + 1 := by omega
    rw [hdigits, hpos, List.take_succ_cons]
    exact Or.inr ⟨c, _, rfl, hc⟩
  case fraction_lt => exact fun x hx => h.digits_lt x (List.mem_of_mem_drop hx)
  case double => exact Or.inl hne
  case units =>
    rw [List.take_append_drop, ← h.units, List.length_take]
    congr 1
    rw [Option.getD_none]
    omega

theorem whole_parts {d : Decimal} {u : Nat} (h : Double.Denotes d u) (hpoint : ¬d.point ≤ 0)
    (hlong : ¬d.point.natAbs < d.digits.length) :
    Parts (d.positional numberFormat) u
      (d.digits ++ List.replicate (d.point.natAbs - d.digits.length) 0) [0] none := by
  obtain ⟨c, cs, hdigits, hc⟩ := h.head
  constructor
  case text_eq =>
    rw [Decimal.positional, if_neg hpoint]
    dsimp only
    rw [List.length_map, if_neg hlong, List.map_append, map_zeros,
      pointed_of_ne_nil (List.cons_ne_nil 0 [])]
    exact (List.append_nil _).symm
  case whole_lt =>
    intro x hx
    rcases List.mem_append.1 hx with hx | hx
    · exact h.digits_lt x hx
    · exact zeros_lt _ x hx
  case leads =>
    rw [hdigits]
    exact Or.inr ⟨c, _, rfl, hc⟩
  case fraction_lt => simp
  case double => exact Or.inl (by simp)
  case units =>
    have hvalue : Digits.value 10
        (d.digits ++ List.replicate (d.point.natAbs - d.digits.length) 0 ++ [0]) =
        Digits.value 10 d.digits * 10 ^ (d.point.natAbs - d.digits.length + 1) := by
      rw [List.append_assoc, ← List.replicate_succ', Digits.value_append_zeros]
    rw [hvalue, Double.unitsOf_shift, ← h.units]
    congr 1
    simp only [List.length_append, List.length_replicate, List.length_cons, List.length_nil,
      Option.getD_none]
    omega

theorem render_parts {d : Decimal} {u : Nat} (h : Double.Denotes d u) :
    ∃ whole fraction e, Parts (d.render numberFormat) u whole fraction e := by
  unfold Decimal.render
  split
  · by_cases hpoint : d.point ≤ 0
    · exact ⟨_, _, _, below_parts h hpoint⟩
    · by_cases hshort : d.point.natAbs < d.digits.length
      · exact ⟨_, _, _, between_parts h hpoint hshort⟩
      · exact ⟨_, _, _, whole_parts h hpoint hshort⟩
  · exact scientific_parts h

structure Numeral (x : Double) (negative : Bool) (whole fraction : List Nat) (e : Option Int) :
    Prop where
  text_eq : x.render numberFormat =
    minus negative ++ (whole.map digit ++ (pointed fraction ++ exponentPart e))
  whole_lt : ∀ d ∈ whole, d < 10
  leads : Leads whole
  fraction_lt : ∀ d ∈ fraction, d < 10
  double : fraction ≠ [] ∨ e ≠ none
  value_eq : Double.ofDecimal negative ⟨whole ++ fraction, whole.length + e.getD 0⟩ = x

theorem zero_numeral (negative : Bool) (hgrid : Double.Representable 0) :
    Numeral (.finite negative 0 hgrid) negative [0] [0] none := by
  constructor
  case text_eq =>
    show minus negative ++ (Double.shortest 0).render numberFormat = _
    rw [Double.shortest, if_pos rfl]
    rfl
  case whole_lt => simp
  case leads => exact Or.inl rfl
  case fraction_lt => simp
  case double => exact Or.inl (by simp)
  case value_eq =>
    rw [Double.ofDecimal_zero]
    · rfl
    · rfl

theorem render_numeral {x : Double} (hx : x.isFinite = true) :
    ∃ negative whole fraction e, Numeral x negative whole fraction e := by
  cases x with
  | nan => simp [Double.isFinite] at hx
  | infinite b => simp [Double.isFinite] at hx
  | finite negative u hgrid =>
    by_cases hu : u = 0
    · subst hu
      exact ⟨negative, [0], [0], none, zero_numeral negative hgrid⟩
    · obtain ⟨whole, fraction, e, parts⟩ := render_parts (Double.shortest_denotes hu hgrid)
      have hlt : ∀ x ∈ whole ++ fraction, x < 10 := by
        intro x hx
        rcases List.mem_append.1 hx with hx | hx
        · exact parts.whole_lt x hx
        · exact parts.fraction_lt x hx
      have htext : (Double.finite negative u hgrid).render numberFormat =
          minus negative ++ (Double.shortest u).render numberFormat := rfl
      rw [parts.text_eq, List.append_assoc] at htext
      exact ⟨negative, whole, fraction, e, htext, parts.whole_lt, parts.leads,
        parts.fraction_lt, parts.double, Double.ofDecimal_eq negative hu hgrid hlt parts.units⟩

theorem readNumber_render {x : Double} (hx : x.isFinite = true) {rest : Text} (h : Stops rest) :
    readNumber (x.render numberFormat ++ rest) = .ok (.double x, rest) := by
  obtain ⟨negative, whole, fraction, e, numeral⟩ := render_numeral hx
  have hread := readNumber_parts negative numeral.whole_lt numeral.leads numeral.fraction_lt
    (exponentPart_head e h) (exponentOf_exponentPart e h) numeral.double
  rw [numeral.value_eq] at hread
  rw [numeral.text_eq]
  simpa only [List.append_assoc] using hread

theorem render_head {x : Double} (hx : x.isFinite = true) :
    ∃ negative d t, d < 10 ∧ x.render numberFormat = minus negative ++ digit d :: t := by
  obtain ⟨negative, whole, fraction, e, numeral⟩ := render_numeral hx
  obtain ⟨d, ds, rfl⟩ := List.exists_cons_of_ne_nil numeral.leads.ne_nil
  have hd := numeral.whole_lt d (List.mem_cons_self ..)
  exact ⟨negative, d, _, hd, numeral.text_eq⟩

end HostTelemetry.Json
