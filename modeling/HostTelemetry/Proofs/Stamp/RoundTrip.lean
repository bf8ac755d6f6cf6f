import HostTelemetry.Proofs.Text.Ascii
import HostTelemetry.Proofs.Text.Digits
import HostTelemetry.Stamp.Printer
import HostTelemetry.Stamp.Reader

/-!
# Stamps and their text

An aware stamp is read back from its text with the same date and time of day. Its offset comes
back too, unless it is shorter than a second: the reader takes whole seconds of zero for
universal time and drops the microseconds.
-/

set_option autoImplicit false

namespace HostTelemetry

open Text (padded digits?_padded Within within_nil padded_within)

namespace Offset

/-- What comes back of an offset from its text. -/
def kept (o : Offset) : Offset := if o.micros.natAbs < 1000000 then .utc else o

theorem kept_eq_iff (o : Offset) : o.kept = o ↔ o.micros = 0 ∨ 1000000 ≤ o.micros.natAbs := by
  obtain ⟨n, hn⟩ := o
  rw [kept]
  dsimp only
  by_cases hshort : n.natAbs < 1000000
  · rw [if_pos hshort, utc, Offset.mk.injEq]
    omega
  · rw [if_neg hshort]
    simp only [true_iff]
    omega

end Offset

namespace Stamp

theorem padded_ne_nil {w : Nat} (hw : 0 < w) (v : Nat) : padded w v ≠ [] :=
  List.ne_nil_of_length_pos (Nat.lt_of_lt_of_le hw (Text.le_padded_length w v))

theorem readFraction?_padded (next : CodePoint) {u : Nat} (hu : u < 1000000) :
    readFraction? next (padded 6 u) = some (u, decide (next ≠ 0)) := by
  have hlength : (padded 6 u).length = 6 := Text.padded_length (by decide) hu
  have hdigits := digits?_padded (by decide : 0 < 6) hu []
  rw [List.append_nil] at hdigits
  rw [readFraction?, hlength]
  dsimp only
  rw [Nat.min_self, hdigits]
  show some (u * 1, decide (next ≠ 0)) = _
  rw [Nat.mul_one]

theorem readFields?_last (next : CodePoint) (k : Nat) (colons : Option Bool) {v : Nat}
    (hv : v < 100) :
    readFields? next (k + 1) colons (padded 2 v) = some ⟨[v], 0, decide (next ≠ 0)⟩ := by
  have hdigits := digits?_padded (by decide : 0 < 2) hv []
  rw [List.append_nil] at hdigits
  rw [readFields?, hdigits]
  rfl

theorem readFields?_colon (next : CodePoint) (k : Nat) {colons : Option Bool}
    (hcolons : colons.getD true = true) {v : Nat} (hv : v < 100) {more : Text} (hmore : more ≠ []) :
    readFields? next (k + 1) colons (padded 2 v ++ cp ':' :: more) =
      (readFields? next k (some true) more).map fun f => { f with values := v :: f.values } := by
  obtain ⟨c, more, rfl⟩ := List.exists_cons_of_ne_nil hmore
  rw [readFields?, digits?_padded (by decide) hv]
  simp only [bind, Option.bind, hcolons, decide_true, Bool.and_self, if_true]
  cases readFields? next k (some true) (c :: more) <;> rfl

theorem readFields?_point (next : CodePoint) (k : Nat) (colons : Option Bool) {v u : Nat}
    (hv : v < 100) (hu : u < 1000000) :
    readFields? next (k + 1) colons (padded 2 v ++ cp '.' :: padded 6 u) =
      some ⟨[v], u, decide (next ≠ 0)⟩ := by
  have hfraction := readFraction?_padded next hu
  have hpoint : cp '.' ≠ cp ':' := by decide
  obtain ⟨c, more, hmore⟩ := List.exists_cons_of_ne_nil (padded_ne_nil (by decide : 0 < 6) u)
  rw [readFields?, digits?_padded (by decide) hv]
  rw [hmore] at hfraction ⊢
  simp [hfraction, hpoint]

theorem readFields?_clock (next : CodePoint) {p : Prop} [Decidable p] {a b c u : Nat}
    (ha : a < 100) (hb : b < 100) (hc : c < 100) (hu : u < 1000000) (hp : ¬p → u = 0) :
    readFields? next 3 none (padded 2 a ++ cp ':' :: (padded 2 b ++ cp ':' :: (padded 2 c ++
      (if p then cp '.' :: padded 6 u else [])))) = some ⟨[a, b, c], u, decide (next ≠ 0)⟩ := by
  have hseconds : ∀ colons, readFields? next 1 colons (padded 2 c ++
      (if p then cp '.' :: padded 6 u else [])) = some ⟨[c], u, decide (next ≠ 0)⟩ := by
    intro colons
    by_cases h : p
    · rw [if_pos h]
      exact readFields?_point next 0 colons hc hu
    · rw [if_neg h, List.append_nil, hp h]
      exact readFields?_last next 0 colons hc
  rw [readFields?_colon next 2 rfl ha (by simp), readFields?_colon next 1 rfl hb, hseconds]
  · rfl
  · simp [padded_ne_nil]

theorem readFields?_minutes (next : CodePoint) {a b : Nat} (ha : a < 100) (hb : b < 100) :
    readFields? next 3 none (padded 2 a ++ cp ':' :: padded 2 b) =
      some ⟨[a, b], 0, decide (next ≠ 0)⟩ := by
  rw [readFields?_colon next 2 rfl ha (padded_ne_nil (by decide) b), readFields?_last next 1 _ hb]
  rfl

theorem date_within (d : Date) : Within 45 57 d.toText := by
  rw [Date.toText]
  simp only [List.cons_append, List.append_assoc]
  exact (padded_within 4 _ (by decide) (by decide)).append (.cons (by decide)
    ((padded_within 2 _ (by decide) (by decide)).append (.cons (by decide)
      (padded_within 2 _ (by decide) (by decide)))))

theorem time_within (m : Micros) (t : TimeOfDay) : Within 46 58 (t.toText m) := by
  have hmicro : Within 46 58
      (if m = .always ∨ t.micro ≠ 0 then cp '.' :: padded 6 t.micro else []) := by
    split
    · exact .cons (by decide) (padded_within 6 _ (by decide) (by decide))
    · exact within_nil 46 58
  rw [TimeOfDay.toText]
  exact (((padded_within 2 _ (by decide) (by decide)).append (.cons (by decide)
    (padded_within 2 _ (by decide) (by decide)))).append (.cons (by decide)
      (padded_within 2 _ (by decide) (by decide)))).append hmicro

theorem offset_within (o : Offset) : Within 43 58 o.toText := by
  have hfield : ∀ w n, Within 43 58 (padded w n) :=
    fun w n => padded_within w n (by decide) (by decide)
  have hpart : ∀ (q : Prop) [Decidable q] (c : CodePoint) (w n : Nat), 43 ≤ c ∧ c ≤ 58 →
      Within 43 58 (if q then [] else c :: padded w n) := by
    intro q _ c w n hc
    split
    · exact within_nil 43 58
    · exact .cons hc (hfield w n)
  have hsign : 43 ≤ (if o.micros < 0 then cp '-' else cp '+') ∧
      (if o.micros < 0 then cp '-' else cp '+') ≤ 58 := by
    split <;> decide
  rw [Offset.toText]
  exact (((Within.cons hsign (hfield 2 _)).append (.cons (by decide) (hfield 2 _))).append
    (hpart _ _ 2 _ (by decide))).append (hpart _ _ 6 _ (by decide))

theorem render_within (m : Micros) (s : Stamp) : Within 43 84 (render (cp 'T') m s) := by
  have hdate := (date_within s.date).mono (by decide : 43 ≤ 45) (by decide : 57 ≤ 84)
  have htime := (time_within m s.time).mono (by decide : 43 ≤ 46) (by decide : 58 ≤ 84)
  unfold render
  apply (hdate.append (.cons (by decide) htime)).append
  cases s.offset? with
  | none => exact within_nil 43 84
  | some o => exact (offset_within o).mono (Nat.le_refl 43) (by decide : 58 ≤ 84)

theorem time_not_mark (m : Micros) (t : TimeOfDay) : ∀ c ∈ t.toText m, isZoneMark c = false := by
  intro c hc
  obtain ⟨hlow, hhigh⟩ := time_within m t c hc
  have hplus : c ≠ cp '+' := Nat.ne_of_gt (Nat.lt_of_lt_of_le (by decide) hlow)
  have hminus : c ≠ cp '-' := Nat.ne_of_gt (Nat.lt_of_lt_of_le (by decide) hlow)
  have hzulu : c ≠ cp 'Z' := Nat.ne_of_lt (Nat.lt_of_le_of_lt hhigh (by decide))
  simp [isZoneMark, hplus, hminus, hzulu]

theorem readFields?_offset (o : Offset) (sign : CodePoint) {t : Text} (ht : o.toText = sign :: t) :
    ∃ f, readFields? 0 3 none t = some f ∧ f.left = false ∧ f.micro = o.micros.natAbs % 1000000 ∧
      f.nth 0 * 3600 + f.nth 1 * 60 + f.nth 2 = o.micros.natAbs / 1000000 := by
  have hsize : -86400000000 < o.micros ∧ o.micros < 86400000000 := o.bounded
  obtain ⟨n, hn⟩ : ∃ n, n = o.micros.natAbs := ⟨_, rfl⟩
  have hlt : n < 86400000000 := by omega
  rw [Offset.toText, ← hn] at ht
  have hhours : n / 1000000 / 3600 < 100 := by omega
  have hminutes : n / 1000000 / 60 % 60 < 100 := by omega
  have hseconds : n / 1000000 % 60 < 100 := by omega
  have hmicros : n % 1000000 < 1000000 := Nat.mod_lt n (by decide)
  simp only [List.cons_append, List.append_assoc, List.cons.injEq] at ht
  rw [← ht.2, ← hn]
  by_cases hwhole : n % 60000000 = 0
  · have hzero : n % 1000000 = 0 := by omega
    rw [if_pos hwhole, if_pos hzero, List.append_nil, List.append_nil]
    exact ⟨_, readFields?_minutes 0 hhours hminutes, rfl, hzero.symm, by simp [Fields.nth]; omega⟩
  · have hclock := readFields?_clock 0 hhours hminutes hseconds hmicros
      (p := ¬n % 1000000 = 0) (by simp)
    rw [ite_not] at hclock
    rw [if_neg hwhole, List.cons_append]
    exact ⟨_, hclock, rfl, rfl, by simp [Fields.nth]; omega⟩

theorem offset_head (o : Offset) :
    ∃ t, o.toText = (if o.micros < 0 then cp '-' else cp '+') :: t :=
  ⟨_, rfl⟩

theorem make?_micros (o : Offset) : Offset.make? o.micros = .ok o := dif_pos o.bounded

theorem offsetOf?_fields (o : Offset) {f : Fields} (hleft : f.left = false)
    (hmicro : f.micro = o.micros.natAbs % 1000000)
    (hseconds : f.nth 0 * 3600 + f.nth 1 * 60 + f.nth 2 = o.micros.natAbs / 1000000) :
    offsetOf? (decide (o.micros < 0)) f = some o.kept := by
  rw [offsetOf?, hseconds, hleft, hmicro, Offset.kept]
  dsimp only
  rw [if_neg Bool.false_ne_true]
  by_cases hshort : o.micros.natAbs < 1000000
  · rw [if_pos hshort, if_pos (Nat.div_eq_of_lt hshort)]
  · have hsize : ((o.micros.natAbs / 1000000 : Nat) : Int) * 1000000 +
        ((o.micros.natAbs % 1000000 : Nat) : Int) = o.micros.natAbs := by omega
    have hsign : (if decide (o.micros < 0) = true then -(o.micros.natAbs : Int)
        else (o.micros.natAbs : Int)) = o.micros := by
      by_cases hneg : o.micros < 0
      · rw [if_pos (decide_eq_true hneg)]
        omega
      · rw [if_neg (by simpa using hneg)]
        omega
    rw [if_neg hshort, if_neg (by omega), hsize, hsign, make?_micros]
    rfl

theorem readZone?_toText (left : Bool) (o : Offset) :
    readZone? left o.toText = some (.fixed o.kept) := by
  obtain ⟨t, ht⟩ := offset_head o
  obtain ⟨f, hf, hleft, hmicro, hseconds⟩ := readFields?_offset o _ ht
  have hoffset := offsetOf?_fields o hleft hmicro hseconds
  have hzulu : (if o.micros < 0 then cp '-' else cp '+') ≠ cp 'Z' := by split <;> decide
  have hminus : decide ((if o.micros < 0 then cp '-' else cp '+') = cp '-') =
      decide (o.micros < 0) := by
    by_cases hneg : o.micros < 0
    · rw [if_pos hneg, decide_eq_true hneg]
      rfl
    · rw [if_neg hneg, decide_eq_false hneg]
      rfl
  rw [ht, readZone?, if_neg hzulu, hf, hminus]
  simp only [bind, Option.bind, hoffset]
  rfl

theorem readTime?_toText (m : Micros) (t : TimeOfDay) (o : Offset) :
    readTime? (t.toText m ++ o.toText) = some (t, .fixed o.kept) := by
  have hhead : ∀ c, o.toText.head? = some c → (!isZoneMark c) = false := by
    intro c hc
    obtain ⟨r, hr⟩ := offset_head o
    rw [hr] at hc
    obtain rfl : (if o.micros < 0 then cp '-' else cp '+') = c := by simpa using hc
    split <;> rfl
  have hspan := Text.span_append (fun c => !isZoneMark c)
    (fun c hc => by simpa using time_not_mark m t c hc) hhead
  have hclock := readFields?_clock (front o.toText) (Nat.lt_trans t.hour_lt (by decide))
    (Nat.lt_trans t.minute_lt (by decide)) (Nat.lt_trans t.second_lt (by decide)) t.micro_lt
    (p := m = .always ∨ t.micro ≠ 0) (by simp)
  have htext : t.toText m = padded 2 t.hour ++ cp ':' :: (padded 2 t.minute ++ cp ':' ::
      (padded 2 t.second ++
        (if m = .always ∨ t.micro ≠ 0 then cp '.' :: padded 6 t.micro else []))) := by
    rw [TimeOfDay.toText]
    simp only [List.cons_append, List.append_assoc]
  rw [← htext] at hclock
  have hmake : TimeOfDay.make? t.hour t.minute t.second t.micro = .ok t := by
    rw [TimeOfDay.make?, dif_pos t.hour_lt, dif_pos t.minute_lt, dif_pos t.second_lt,
      dif_pos t.micro_lt]
  unfold readTime?
  dsimp only
  rw [hspan.1, hspan.2, hclock]
  simp only [bind, Option.bind, readZone?_toText, Fields.nth, List.getD_cons_zero,
    List.getD_cons_succ, hmake]
  rfl

theorem year_lt (d : Date) : d.year < 10 ^ 4 := Nat.lt_of_le_of_lt d.year_mem.2 (by decide)

theorem month_lt (d : Date) : d.month < 10 ^ 2 := Nat.lt_of_le_of_lt d.month_mem.2 (by decide)

theorem day_lt (d : Date) : d.day < 10 ^ 2 := by
  have hmonth : daysInMonth d.year d.month ≤ 31 := by
    unfold daysInMonth
    split_ifs <;> decide
  exact Nat.lt_of_le_of_lt (Nat.le_trans d.day_mem.2 hmonth) (by decide)

theorem date_append (d : Date) (rest : Text) :
    d.toText ++ rest = padded 4 d.year ++ cp '-' ::
      (padded 2 d.month ++ cp '-' :: (padded 2 d.day ++ rest)) := by
  rw [Date.toText]
  simp only [List.cons_append, List.append_assoc]

theorem date_length (d : Date) : d.toText.length = 10 := by
  have hyear := Text.padded_length (by decide) (year_lt d)
  have hmonth := Text.padded_length (by decide) (month_lt d)
  have hday := Text.padded_length (by decide) (day_lt d)
  rw [Date.toText]
  simp only [List.length_append, List.length_cons, hyear, hmonth, hday]

theorem front_padded {w : Nat} (hw : 0 < w) (n : Nat) (rest : Text) :
    front (padded w n ++ rest) ≠ cp 'W' := by
  obtain ⟨c, t, ht⟩ := List.exists_cons_of_ne_nil (padded_ne_nil hw n)
  have hc : c ≤ 57 := (padded_within w n (Nat.le_refl 48) (Nat.le_refl 57) c
    (by rw [ht]; exact List.mem_cons_self ..)).2
  rw [ht]
  exact Nat.ne_of_lt (Nat.lt_of_le_of_lt hc (by decide))

theorem readDate?_toText (n : Nat) (d : Date) (rest : Text) :
    readDate? n (d.toText ++ rest) = some d := by
  have hweek := front_padded (by decide : 0 < 2) d.month (cp '-' :: (padded 2 d.day ++ rest))
  have hmake : Date.make? d.year d.month d.day = .ok d := by
    rw [Date.make?, dif_pos d.year_mem, dif_pos d.month_mem, dif_pos d.day_mem]
  have hfront : ∀ t, front (cp '-' :: t) = cp '-' := fun _ => rfl
  have hdrop : ∀ (c : CodePoint) (t : Text), (c :: t).drop 1 = t := fun _ _ => rfl
  have hhyphen : ∀ t, hyphen? true (cp '-' :: t) = some t := fun _ => rfl
  rw [date_append, readDate?, digits?_padded (by decide) (year_lt d)]
  simp only [bind, Option.bind, hfront, hdrop, if_true, decide_true, if_neg hweek,
    digits?_padded (by decide : 0 < 2) (month_lt d), hhyphen,
    digits?_padded (by decide : 0 < 2) (day_lt d), hmake]
  rfl

/-- The hyphen after the year, with no week behind it, makes the date ten bytes long. -/
theorem dateEnd_toText (d : Date) (rest : Text) : dateEnd (d.toText ++ rest) = some 10 := by
  have hyear := Text.padded_length (by decide) (year_lt d)
  have hlong : (d.toText ++ rest).length ≠ 7 := by
    rw [List.length_append, date_length]
    omega
  have hfour : (d.toText ++ rest).drop 4 =
      cp '-' :: (padded 2 d.month ++ cp '-' :: (padded 2 d.day ++ rest)) := by
    rw [date_append]
    exact List.drop_left' hyear
  have hhyphen : front ((d.toText ++ rest).drop 4) = cp '-' := by
    rw [hfour]
    rfl
  have hweek : front ((d.toText ++ rest).drop (4 + 1)) ≠ cp 'W' := by
    rw [← List.drop_drop, hfour]
    exact front_padded (by decide) d.month _
  rw [dateEnd, if_neg hlong]
  dsimp only
  rw [if_pos hhyphen, if_neg hweek]

theorem render_fixed (m : Micros) (d : Date) (t : TimeOfDay) (o : Offset) :
    render (cp 'T') m ⟨d, t, .fixed o⟩ = d.toText ++ cp 'T' :: (t.toText m ++ o.toText) := by
  simp [render, offset?]

theorem readBytes?_render (m : Micros) (d : Date) (t : TimeOfDay) (o : Offset) :
    readBytes? (render (cp 'T') m ⟨d, t, .fixed o⟩) = some ⟨d, t, .fixed o.kept⟩ := by
  have hdrop : (d.toText ++ cp 'T' :: (t.toText m ++ o.toText)).drop 10 =
      cp 'T' :: (t.toText m ++ o.toText) := by
    rw [← date_length d]
    exact List.drop_left
  have hwidth : (cp 'T' :: (t.toText m ++ o.toText)).drop (widthOf (cp 'T')) =
      t.toText m ++ o.toText := rfl
  rw [render_fixed, readBytes?, dateEnd_toText]
  simp only [bind, Option.bind, readDate?_toText, hdrop, hwidth, readTime?_toText]
  rfl

theorem separatorSafe_ascii {t : Text} (h : Text.Ascii t) : separatorSafe t = t := by
  have hfront : ∀ i, front (t.drop i) < 128 := by
    intro i
    cases hi : t.drop i with
    | nil => exact (by decide : 0 < 128)
    | cons c r => exact h c (List.mem_of_mem_drop (by rw [hi]; exact List.mem_cons_self ..))
  have hfind : ([7, 8, 10].find? fun i => decide (CodePoint.IsSurrogate (front (t.drop i)))) =
      none := by
    rw [List.find?_eq_none]
    intro i _
    simpa using Utf8.not_surrogate (hfront i)
  rw [separatorSafe, hfind]

/-- An aware stamp is read back from its text, with what is kept of its offset. -/
theorem read?_render (m : Micros) (d : Date) (t : TimeOfDay) (o : Offset) :
    read? (render (cp 'T') m ⟨d, t, .fixed o⟩) = some ⟨d, t, .fixed o.kept⟩ := by
  have hascii : Text.Ascii (render (cp 'T') m ⟨d, t, .fixed o⟩) := by
    intro c hc
    exact Nat.lt_of_le_of_lt (render_within m ⟨d, t, .fixed o⟩ c hc).2 (by decide)
  have hlength : ¬(render (cp 'T') m ⟨d, t, .fixed o⟩).length < leastLength := by
    rw [render_fixed, List.length_append, date_length]
    show ¬10 + _ < 7
    omega
  rw [read?, if_neg hlength, separatorSafe_ascii hascii, Utf8.encode_ascii hascii]
  dsimp only
  rw [Utf8.map_toNat_ascii hascii, readBytes?_render]

end Stamp

end HostTelemetry
