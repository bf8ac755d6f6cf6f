import HostTelemetry.Proofs.Json.Form
import HostTelemetry.Proofs.Text.Order
import HostTelemetry.Record

/-!
# Reading a record does not depend on layout

The members of an object with different names are looked up by name, in the order of the fields,
and what is unknown is sorted before it is reported. So neither their order nor the blanks around
the tokens make a difference to a record, or to what is said of a text that is none.
-/

set_option autoImplicit false

namespace HostTelemetry

theorem lookup?_eq_some_iff {α : Type} {kvs : List (Text × α)} (h : (kvs.map Prod.fst).Nodup)
    (key : Text) (v : α) : lookup? key kvs = some v ↔ (key, v) ∈ kvs := by
  induction kvs with
  | nil => simp [lookup?]
  | cons m kvs ih =>
    obtain ⟨k, x⟩ := m
    obtain ⟨hnew, hkvs⟩ := List.nodup_cons.1 h
    rw [lookup?, List.mem_cons, Prod.mk.injEq]
    by_cases hk : k = key
    · subst hk
      have hnone : (k, v) ∉ kvs := fun hv => hnew (List.mem_map.2 ⟨(k, v), hv, rfl⟩)
      rw [if_pos rfl, Option.some.injEq]
      simp [hnone, eq_comm]
    · rw [if_neg hk, ih hkvs]
      simp [Ne.symm hk]

theorem lookup?_perm {α : Type} {kvs kvs' : List (Text × α)} (h : (kvs.map Prod.fst).Nodup)
    (hperm : kvs'.Perm kvs) (key : Text) : lookup? key kvs' = lookup? key kvs := by
  have h' : (kvs'.map Prod.fst).Nodup := (hperm.map Prod.fst).nodup_iff.2 h
  apply Option.ext
  intro v
  rw [lookup?_eq_some_iff h', lookup?_eq_some_iff h, hperm.mem_iff]

namespace Record

open Json (Laid Form Key)

theorem ofMembers_perm {kvs kvs' : List (Text × Json)} (h : (kvs.map Prod.fst).Nodup)
    (hperm : kvs'.Perm kvs) : ofMembers kvs' = ofMembers kvs := by
  have hlookup := lookup?_perm h hperm
  have hunknown := (hperm.map Prod.fst).filter fun n => !fieldNames.contains n
  unfold ofMembers
  simp only [hlookup, hunknown.isEmpty_eq, Text.sort_perm hunknown]

theorem read_members {room : Nat} {members : List (Key × Form)} {t : Text} {kvs : List (Text × Json)}
    (ht : Laid (Form.object members).tokens t) (hnodup : (members.map fun m => m.1.name).Nodup)
    (hvalues : members.mapM (Form.memberValue (Form.value room)) = .ok kvs) :
    read room t = ofMembers kvs := by
  have hobject : Json.objectOf kvs = .object kvs := by
    apply Json.objectOf_nodup
    rwa [Json.names_of_value hvalues]
  have hread : Json.read (room + 1) t = .ok (.object kvs) := by
    rw [Json.read_laid ht, ← hobject]
    show (members.mapM (Form.memberValue (Form.value room))).map Json.objectOf = _
    rw [hvalues]
    rfl
  rw [read, hread]

/-- A text of an object is a layout of members, and if these have different names, then every
layout of the same members in any order is read as the same record, or refused with the same
failure. -/
theorem read_relaid {room : Nat} {t : Text} {kvs : List (Text × Json)}
    (h : Json.read (room + 1) t = .ok (.object kvs)) :
    (∃ members, Laid (Form.object members).tokens t) ∧
      ∀ members, Laid (Form.object members).tokens t →
        (members.map fun m => m.1.name).Nodup →
        ∀ members' t', members'.Perm members → Laid (Form.object members').tokens t' →
          read room t' = read room t := by
  refine ⟨Json.exists_laid h, fun members ht hnodup members' t' hperm ht' => ?_⟩
  obtain ⟨pairs, hpairs, -⟩ := map_eq_ok.1 ((Json.read_laid ht _ _).1 h)
  obtain ⟨pairs', hpairs', hsame⟩ := mapM_perm hpairs hperm
  have hnames : (pairs.map Prod.fst).Nodup := by rwa [Json.names_of_value hpairs]
  have hnodup' : (members'.map fun m => m.1.name).Nodup := (hperm.map _).nodup_iff.2 hnodup
  rw [read_members ht hnodup hpairs, read_members ht' hnodup' hpairs']
  exact ofMembers_perm hnames hsame

def strange : List (Key × Form) :=
  [(⟨lit "\"x y\"", lit "x y", rfl⟩,
      .array [.token ⟨lit "1", .int 1, rfl⟩, .token ⟨lit "\"]\"", .text (lit "]"), rfl⟩]),
    (⟨lit "\"cpu\"", lit "cpu", rfl⟩, .token ⟨lit "NaN", .double .nan, rfl⟩)]

theorem read_relaid_strange :
    let t := lit "\x7b\"x y\":[1,\"]\"],\"cpu\":NaN\x7d"
    let t' := lit "\t\x7b\t\"cpu\"\t:\tNaN\t,\t\"x y\"\t:\t[\t1\t,\t\"]\"\t]\t\x7d"
    (∃ kvs, Json.read 990 t = .ok (.object kvs)) ∧
      Laid (Form.object strange).tokens t ∧ (strange.map fun m => m.1.name).Nodup ∧
      Laid (Form.object strange.reverse).tokens t' ∧ read 989 t' = read 989 t := by
  intro t t'
  have ht : Laid (Form.object strange).tokens t := Laid.spaced (w := []) (by simp [Json.Blank]) _
  have ht' : Laid (Form.object strange.reverse).tokens t' :=
    Laid.spaced (w := lit "\t") (by unfold Json.Blank; decide) _
  have hread : Json.read 990 t = .ok _ := (Json.read_laid ht _ _).2 rfl
  have hnodup : (strange.map fun m => m.1.name).Nodup := by decide
  exact ⟨⟨_, hread⟩, ht, hnodup, ht',
    (read_relaid hread).2 strange ht hnodup strange.reverse t' strange.reverse_perm ht'⟩

end Record

end HostTelemetry
