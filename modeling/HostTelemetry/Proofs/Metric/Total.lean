import HostTelemetry.Proofs.Json.Object
import HostTelemetry.Proofs.Metric.Account

/-!
# Totals of a metrics file

The lines of an account are read back with the numbers that were counted. So what all lines of a
file say about a counter grows by them when an account is appended.
-/

set_option autoImplicit false

namespace HostTelemetry

theorem Text.splitOn_ne_nil (c : CodePoint) (t : Text) : splitOn c t ≠ [] := by
  unfold splitOn
  split
  · simp
  · split
    · simp
    · split <;> simp

theorem Text.splitOn_append (c : CodePoint) (s t : Text) :
    splitOn c (s ++ c :: t) = splitOn c s ++ splitOn c t := by
  induction s with
  | nil => simp [splitOn]
  | cons d s ih =>
    by_cases hd : d = c
    · simp [splitOn, hd, ih]
    · obtain ⟨p, ps, hs⟩ := List.exists_cons_of_ne_nil (splitOn_ne_nil c s)
      simp [splitOn, hd, ih, hs]

theorem Text.splitOn_absent {c : CodePoint} {t : Text} (h : c ∉ t) : splitOn c t = [t] := by
  induction t with
  | nil => rfl
  | cons d t ih =>
    rw [List.mem_cons, not_or] at h
    simp [splitOn, Ne.symm h.1, ih h.2]

namespace MetricFile

def pointValue : Json → Int
  | .object kvs =>
    match lookup? (lit "value") kvs with
    | some (.int n) => n
    | _ => 0
  | _ => 0

/-- What a line says of a counter; a line about another one says nothing. No line nests deeper than
it is long. -/
def said (name line : Text) : Int :=
  match Json.read line.length line with
  | .ok (.object kvs) =>
    match lookup? (lit "name") kvs, lookup? (lit "data_points") kvs with
    | some (.text t), some (.array ps) => if t = name then (ps.map pointValue).sum else 0
    | _, _ => 0
  | _ => 0

def totalOf (name t : Text) : Int := ((Text.splitOn 10 t).map (said name)).sum

def total (name : String) (bs : Bytes) : Int := totalOf (lit name) (bs.map UInt8.toNat)

def Whole (bs : Bytes) : Prop := bs = [] ∨ ∃ front, bs = front ++ [10]

theorem totalOf_append (name s t : Text) :
    totalOf name (s ++ 10 :: t) = totalOf name s + totalOf name t := by
  rw [totalOf, Text.splitOn_append, List.map_append, List.sum_append]
  rfl

theorem totalOf_nil (name : Text) : totalOf name [] = 0 := rfl

theorem totalOf_line (name : Text) {l : Text} (h : 10 ∉ l) : totalOf name l = said name l := by
  simp [totalOf, Text.splitOn_absent h]

theorem total_append (name : String) {bs : Bytes} (whole : Whole bs) (more : Bytes) :
    total name (bs ++ more) = total name bs + total name more := by
  obtain rfl | ⟨front, rfl⟩ := whole
  · simp [total, totalOf_nil]
  · have hmore := totalOf_append (lit name) (front.map UInt8.toNat) (more.map UInt8.toNat)
    have hnone := totalOf_append (lit name) (front.map UInt8.toNat) []
    rw [totalOf_nil, Int.add_zero] at hnone
    simp only [total, List.map_append, List.map_cons, List.map_nil, List.append_assoc,
      List.singleton_append]
    rw [← hnone] at hmore
    exact hmore

theorem totalOf_lines (name : Text) {ls : List Text} (h : ∀ l ∈ ls, 10 ∉ l) :
    totalOf name (ls.flatMap fun l => l ++ [10]) = (ls.map (said name)).sum := by
  induction ls with
  | nil => rfl
  | cons l ls ih =>
    have hline := totalOf_line name (h l (List.mem_cons_self ..))
    have hlines := ih fun k hk => h k (List.mem_cons_of_mem _ hk)
    rw [List.flatMap_cons, List.append_assoc, List.singleton_append, totalOf_append, hline, hlines]
    rfl

end MetricFile

namespace Account

open MetricFile (Whole total totalOf said)

/-- It can be printed, and its texts are read back as they are. -/
structure Legible (a : Account) : Prop extends a.Printable where
  output : Json.Clean a.output
  moment : Json.Clean a.moment
  resource : a.resource.Proper

open Json (Reads readValue spaced spaced_marks object_reads array_reads text_reads int_reads Clean
  clean_of_forall)

theorem members_read {depth : Nat} {kvs : List (Text × Json)} (keys : List String)
    (hkeys : kvs.map Prod.fst = keys.map lit) (hnodup : (keys.map lit).Nodup)
    (hvisible : ((keys.map lit).all fun k => k.all fun c => decide (32 ≤ c ∧ c ≤ 126)) = true)
    (hvalues : ∀ m ∈ kvs, Reads spaced (readValue depth) m.2) :
    Reads spaced (readValue (depth + 1)) (.object kvs) := by
  rw [← hkeys] at hnodup hvisible
  apply object_reads spaced_marks hnodup _ hvalues
  intro m hm
  have hkey := List.all_eq_true.1 hvisible m.1 (List.mem_map_of_mem hm)
  exact Json.clean_of_visible (Text.within_of_all hkey)

theorem point_reads {a : Account} (legible : a.Legible) (depth : Nat) {i : Instrument}
    (hi : i ∈ [Meter.samples, Meter.bytes]) {n : Nat} (hn : n < 10 ^ maxDigits) :
    Reads spaced (readValue (depth + 2)) (.object [
      (lit "attributes", .object [(lit "hostsim.output", .text a.output)]),
      (lit "start_time", .int (a.start i)), (lit "time", .int a.time), (lit "value", .int n)]) := by
  have hattributes : Reads spaced (readValue (depth + 1))
      (.object [(lit "hostsim.output", .text a.output)]) := by
    apply members_read ["hostsim.output"] rfl (by decide) (by decide)
    intro m hm
    obtain rfl := List.mem_singleton.1 hm
    exact text_reads spaced depth legible.output
  apply members_read ["attributes", "start_time", "time", "value"] rfl (by decide) (by decide)
  intro m hm
  simp only [List.mem_cons, List.not_mem_nil, or_false] at hm
  rcases hm with rfl | rfl | rfl | rfl
  · exact hattributes
  · exact int_reads spaced _ (legible.start i hi)
  · exact int_reads spaced _ legible.time
  · exact int_reads spaced _ (by rwa [Int.natAbs_natCast])

theorem resource_reads {resource : Attributes} (proper : resource.Proper) (depth : Nat) :
    Reads spaced (readValue (depth + 1)) (.object (resource.map fun kv => (kv.1, .text kv.2))) := by
  have hclean := fun kv hkv => (proper.plain kv hkv).imp clean_of_forall clean_of_forall
  apply object_reads spaced_marks
  · rw [List.map_map]
    exact proper.nodup
  · intro m hm
    obtain ⟨kv, hkv, rfl⟩ := List.mem_map.1 hm
    exact (hclean kv hkv).1
  · intro m hm
    obtain ⟨kv, hkv, rfl⟩ := List.mem_map.1 hm
    exact text_reads spaced depth (hclean kv hkv).2

theorem instrument_clean {i : Instrument} (hi : i ∈ [Meter.samples, Meter.bytes]) {s : String}
    (hs : s ∈ [i.name, i.description, i.unit]) : Clean (lit s) := by
  have hall : ([Meter.samples, Meter.bytes].all fun i =>
      [i.name, i.description, i.unit].all fun s =>
        (lit s).all fun c => decide (32 ≤ c ∧ c ≤ 126)) = true := by decide +kernel
  exact Json.clean_of_visible (Text.within_of_all
    (List.all_eq_true.1 (List.all_eq_true.1 hall i hi) s hs))

theorem entry_reads {a : Account} (legible : a.Legible) (depth : Nat) {i : Instrument}
    (hi : i ∈ [Meter.samples, Meter.bytes]) {n : Nat} (hn : n < 10 ^ maxDigits) :
    Reads spaced (readValue (depth + 4)) (a.entry i n) := by
  have hresource := resource_reads legible.resource (depth + 2)
  have hpoints : Reads spaced (readValue (depth + 3)) (.array [.object [
      (lit "attributes", .object [(lit "hostsim.output", .text a.output)]),
      (lit "start_time", .int (a.start i)), (lit "time", .int a.time), (lit "value", .int n)]]) := by
    apply array_reads spaced_marks
    intro v hv
    obtain rfl := List.mem_singleton.1 hv
    exact point_reads legible depth hi hn
  apply members_read ["name", "description", "unit", "resource", "timestamp", "data_points"] rfl
    (by decide) (by decide)
  intro m hm
  simp only [List.mem_cons, List.not_mem_nil, or_false] at hm
  rcases hm with rfl | rfl | rfl | rfl | rfl | rfl
  · exact text_reads spaced _ (instrument_clean hi (by simp))
  · exact text_reads spaced _ (instrument_clean hi (by simp))
  · exact text_reads spaced _ (instrument_clean hi (by simp))
  · exact hresource
  · exact text_reads spaced _ legible.moment
  · exact hpoints

theorem text_eq (a : Account) :
    a.text = (a.entries.map (Json.render spaced)).flatMap fun l => l ++ [10] := by
  rw [text, List.flatMap_map]

theorem text_ascii (a : Account) : Text.Ascii a.text := by
  intro c hc
  rw [text, List.mem_flatMap] at hc
  obtain ⟨e, -, hc⟩ := hc
  rcases List.mem_append.1 hc with hc | hc
  · exact (Json.render_visible Json.spaced_visible e).ascii (by decide) c hc
  · obtain rfl := List.mem_singleton.1 hc
    decide

theorem print_whole {bs : Bytes} (whole : Whole bs) (a : Account) : Whole (bs ++ a.print) := by
  by_cases hnone : a.samples = 0
  · rw [print, text, entries, if_pos hnone]
    simpa [MetricFile.asciiBytes] using whole
  · obtain ⟨first, last, hentries⟩ : ∃ first last, a.entries = [first, last] :=
      ⟨_, _, if_neg hnone⟩
    refine Or.inr ⟨bs ++ MetricFile.asciiBytes (Json.render spaced first ++ 10 ::
      Json.render spaced last), ?_⟩
    rw [print, text, hentries]
    simp [MetricFile.asciiBytes]

/-- Every entry has one line of its own, which is read as this entry. -/
def Legibly (a : Account) : Prop :=
  ∀ e ∈ a.entries, 10 ∉ Json.render spaced e ∧
    Json.read (Json.render spaced e).length (Json.render spaced e) = .ok e

theorem render_line (e : Json) : 10 ∉ Json.render spaced e := fun h =>
  absurd (Json.render_visible Json.spaced_visible e 10 h).1 (by decide)

theorem entry_long (a : Account) (i : Instrument) (n : Nat) :
    4 ≤ (Json.render spaced (a.entry i n)).length := by
  simp only [entry, Json.render, Json.renderMembers, Text.join, Json.string, List.length_append,
    List.length_cons, List.cons_append]
  omega

theorem entry_read {a : Account} (legible : a.Legible) {i : Instrument}
    (hi : i ∈ [Meter.samples, Meter.bytes]) {n : Nat} (hn : n < 10 ^ maxDigits) :
    Json.read (Json.render spaced (a.entry i n)).length (Json.render spaced (a.entry i n)) =
      .ok (a.entry i n) := by
  obtain ⟨depth, hdepth⟩ := Nat.exists_eq_add_of_le' (entry_long a i n)
  rw [hdepth]
  exact Json.read_render Json.spaced_visible (entry_reads legible depth hi hn)

theorem Legible.legibly {a : Account} (legible : a.Legible) : a.Legibly := by
  intro e he
  refine ⟨render_line e, ?_⟩
  rw [entries] at he
  split at he
  · cases he
  · simp only [List.mem_cons, List.not_mem_nil, or_false] at he
    rcases he with rfl | rfl
    · exact entry_read legible (i := Meter.samples) (by simp) legible.samples
    · exact entry_read legible (i := Meter.bytes) (by simp) legible.bytes

theorem said_entry {a : Account} {i : Instrument} {n : Nat}
    (hread : Json.read (Json.render spaced (a.entry i n)).length (Json.render spaced (a.entry i n)) =
      .ok (a.entry i n)) (other : String) :
    said (lit other) (Json.render spaced (a.entry i n)) =
      if lit i.name = lit other then (n : Int) else 0 := by
  have hsum : ([Json.object [
      (lit "attributes", .object [(lit "hostsim.output", .text a.output)]),
      (lit "start_time", .int (a.start i)), (lit "time", .int a.time), (lit "value", .int n)]].map
        MetricFile.pointValue).sum = n := Int.add_zero _
  rw [said, hread, entry]
  show (if lit i.name = lit other then _ else (0 : Int)) = _
  rw [hsum]

theorem total_print (a : Account) (name : String) :
    total name a.print = (a.entries.map fun e => said (lit name) (Json.render spaced e)).sum := by
  have hlines : ∀ l ∈ a.entries.map (Json.render spaced), 10 ∉ l := by
    intro l hl
    obtain ⟨e, -, rfl⟩ := List.mem_map.1 hl
    exact render_line e
  rw [total, print, MetricFile.asciiBytes, Utf8.map_toNat_ascii (text_ascii a), text_eq,
    MetricFile.totalOf_lines _ hlines, List.map_map]
  rfl

theorem total_samples {a : Account} (legibly : a.Legibly) :
    total "hostsim.samples.emitted" a.print = a.samples := by
  have hread := fun e he => (legibly e he).2
  rw [total_print]
  unfold entries at hread ⊢
  split at hread
  · rename_i hnone
    rw [if_pos hnone, hnone]
    rfl
  · rename_i hsome
    simp only [List.mem_cons, List.not_mem_nil, or_false, forall_eq_or_imp, forall_eq] at hread
    rw [if_neg hsome, List.map_cons, List.map_cons, List.map_nil, said_entry hread.1,
      said_entry hread.2, if_pos rfl, if_neg (by decide)]
    simp

end Account

end HostTelemetry
