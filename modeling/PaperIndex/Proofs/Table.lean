import Mathlib.Data.List.Perm.Basic
import Mathlib.Data.List.Nodup
import PaperIndex.Table

/-! # Tables up to the order of their rows

The answers of a table determine its rows up to their order (`rows_perm`), so whatever is counted
over the rows depends on the answers alone. `part` is the part of a relation that lies under one
component of its primary key, as a table under the other one. `mapValues` translates the values and
commutes with every change of a table. -/

namespace PaperIndex

namespace Table

variable {κ μ α β : Type}

theorem nodup_rows (t : Table κ α) : t.rows.Nodup := t.nodup.of_map

/-- The rows whose keys have the form `f m`, under `m`. -/
def part (t : Table κ α) (f : μ → κ) (g : κ → Option μ) (hg : ∀ k m, g k = some m ↔ f m = k) :
    Table μ α where
  rows := t.rows.filterMap fun r => (g r.1).map fun m => (m, r.2)
  nodup := by
    have hkeys : (t.rows.filterMap fun r => (g r.1).map fun m => (m, r.2)).map Prod.fst =
        (t.rows.map Prod.fst).filterMap g := by
      rw [List.map_filterMap, List.filterMap_map]
      refine List.filterMap_congr fun r _ => ?_
      rw [Function.comp_apply]
      cases g r.1 <;> rfl
    rw [hkeys]
    refine t.nodup.filterMap fun k k' m hk hk' => ?_
    rw [← (hg k m).1 hk, ← (hg k' m).1 hk']

/-- The table with its values translated. -/
def mapValues (f : α → β) (t : Table κ α) : Table κ β where
  rows := t.rows.map fun r => (r.1, f r.2)
  nodup := by
    rw [List.map_map]
    exact t.nodup

theorem forall_rows_filter {P : κ × α → Prop} {t : Table κ α} (h : ∀ r ∈ t.rows, P r)
    (p : κ → α → Bool) : ∀ r ∈ (t.filter p).rows, P r := by
  intro r hr
  rw [rows_filter] at hr
  exact h r (List.mem_of_mem_filter hr)

@[simp] theorem rows_mapValues (f : α → β) (t : Table κ α) :
    (t.mapValues f).rows = t.rows.map fun r => (r.1, f r.2) := rfl

theorem map_snd_mapValues (f : α → β) (t : Table κ α) :
    (t.mapValues f).rows.map Prod.snd = (t.rows.map Prod.snd).map f := by
  rw [rows_mapValues, List.map_map, List.map_map]
  rfl

theorem keys_mapValues (f : α → β) (t : Table κ α) : (t.mapValues f).keys = t.keys :=
  List.map_map

theorem filter_mapValues (f : α → β) (t : Table κ α) (p : κ → Bool) :
    (t.mapValues f).filter (fun k _ => p k) = (t.filter fun k _ => p k).mapValues f := by
  refine Table.ext ?_
  rw [rows_filter, rows_mapValues, rows_mapValues, rows_filter, List.filter_map]
  rfl

variable [DecidableEq κ] [DecidableEq μ]

theorem forall_rows_insert {P : κ × α → Prop} {t : Table κ α} (h : ∀ r ∈ t.rows, P r) {k : κ}
    {a : α} (ha : P (k, a)) : ∀ r ∈ (t.insert k a).rows, P r := by
  intro r hr
  rcases List.mem_cons.1 hr with rfl | hr
  · exact ha
  · exact forall_rows_filter h _ r hr

theorem forall_rows_modify {P : κ × α → Prop} {t : Table κ α} (h : ∀ r ∈ t.rows, P r) {k : κ}
    {f : α → α} (hf : ∀ a, P (k, a) → P (k, f a)) : ∀ r ∈ (t.modify k f).rows, P r := by
  intro r hr
  obtain ⟨x, hx, rfl⟩ := List.mem_map.1 hr
  have hP := h x hx
  by_cases hk : x.1 = k
  · rw [if_pos hk]
    rw [← hk] at hf
    exact hf x.2 hP
  · rwa [if_neg hk]

/-- An edit matters only for the row that there is. -/
theorem modify_congr {t : Table κ α} {k : κ} {f g : α → α}
    (h : ∀ a, t.find? k = some a → f a = g a) : t.modify k f = t.modify k g := by
  refine Table.ext (List.map_congr_left fun r hr => ?_)
  by_cases hk : r.1 = k
  · have hfind : t.find? k = some r.2 := find?_eq_some_iff.2 (hk ▸ hr)
    rw [if_pos hk, if_pos hk, h r.2 hfind]
  · rw [if_neg hk, if_neg hk]

/-- **Two tables with the same answers** have the same rows, up to their order. -/
theorem rows_perm {s t : Table κ α} (h : ∀ k, s.find? k = t.find? k) : s.rows.Perm t.rows :=
  (List.perm_ext_iff_of_nodup s.nodup_rows t.nodup_rows).2 (mem_rows_congr h)

/-- **A table** is determined by its keys in row order and its answers. -/
theorem ext_find? {s t : Table κ α} (hkeys : s.keys = t.keys)
    (h : ∀ k, s.find? k = t.find? k) : s = t := by
  have hrows : ∀ u : Table κ α,
      u.rows = u.keys.filterMap fun k => (u.find? k).map fun a => (k, a) := by
    intro u
    rw [keys, List.filterMap_map]
    refine List.filterMap_some.symm.trans (List.filterMap_congr fun r hr => ?_)
    have hfind : u.find? r.1 = some r.2 := find?_eq_some_iff.2 hr
    rw [Function.comp_apply, hfind]
    rfl
  refine Table.ext ?_
  rw [hrows s, hrows t, hkeys]
  simp only [h]

theorem keys_modify (t : Table κ α) (k : κ) (f : α → α) : (t.modify k f).keys = t.keys := by
  unfold keys modify
  rw [List.map_map]
  refine List.map_congr_left fun r _ => ?_
  rw [Function.comp_apply]
  split <;> rfl

theorem mem_keys_iff {t : Table κ α} {k : κ} : k ∈ t.keys ↔ t.find? k ≠ none := by
  rw [ne_eq, find?_eq_none_iff, not_not]

theorem any_rows {t : Table κ α} {k : κ} {q : α → Bool} :
    (t.rows.any fun row => row.1 == k && q row.2) = (t.find? k).any q := by
  rw [Bool.eq_iff_iff, List.any_eq_true, Option.any_eq_true]
  constructor
  · rintro ⟨⟨k', a⟩, hrow, hq⟩
    obtain ⟨hkey, hq⟩ := Bool.and_eq_true_iff.1 hq
    exact ⟨a, find?_eq_some_iff.2 (eq_of_beq hkey ▸ hrow), hq⟩
  · rintro ⟨a, ha, hq⟩
    exact ⟨(k, a), find?_eq_some_iff.1 ha, Bool.and_eq_true_iff.2 ⟨beq_self_eq_true k, hq⟩⟩

theorem isSome_find? (t : Table κ α) (k : κ) :
    (t.find? k).isSome = t.contains k := by
  rw [Bool.eq_iff_iff, contains_iff, Option.isSome_iff_ne_none, ne_eq, find?_eq_none_iff, not_not]

/-- The keys of the rows that pass a test of the key and one of the value. -/
theorem mem_keys_filter_iff {t : Table κ α} {p : κ → Bool} {q : α → Bool} {k : κ} :
    k ∈ (t.rows.filter fun r => p r.1 && q r.2).map Prod.fst ↔
      p k = true ∧ (t.find? k).any q = true := by
  rw [List.mem_map, Option.any_eq_true]
  constructor
  · rintro ⟨⟨k', a⟩, hrow, rfl⟩
    obtain ⟨hrow, hpq⟩ := List.mem_filter.1 hrow
    obtain ⟨hp, hq⟩ := Bool.and_eq_true_iff.1 hpq
    exact ⟨hp, a, find?_eq_some_iff.2 hrow, hq⟩
  · rintro ⟨hp, a, hf, hq⟩
    exact ⟨(k, a), List.mem_filter.2 ⟨find?_eq_some_iff.1 hf, Bool.and_eq_true_iff.2 ⟨hp, hq⟩⟩, rfl⟩

/-- The keys that pass a test, in two tables in which the same keys have values that pass. -/
theorem keys_filter_perm {s : Table κ α} {t : Table κ β} (p : κ → Bool) {q : α → Bool}
    {q' : β → Bool} (h : ∀ k, (s.find? k).any q = (t.find? k).any q') :
    ((s.rows.filter fun r => p r.1 && q r.2).map Prod.fst).Perm
      ((t.rows.filter fun r => p r.1 && q' r.2).map Prod.fst) := by
  refine (List.perm_ext_iff_of_nodup ?_ ?_).2 fun k => ?_
  · exact s.nodup.sublist (List.filter_sublist.map _)
  · exact t.nodup.sublist (List.filter_sublist.map _)
  · rw [mem_keys_filter_iff, mem_keys_filter_iff, h]

theorem find?_part (t : Table κ α) {f : μ → κ} {g : κ → Option μ}
    (hg : ∀ k m, g k = some m ↔ f m = k) (m : μ) : (t.part f g hg).find? m = t.find? (f m) := by
  refine Option.ext fun a => ?_
  rw [find?_eq_some_iff, find?_eq_some_iff]
  unfold part
  rw [List.mem_filterMap]
  constructor
  · rintro ⟨⟨k, b⟩, hmem, hb⟩
    obtain ⟨m', hm', he⟩ := Option.map_eq_some_iff.1 hb
    cases he
    rw [(hg k m).1 hm']
    exact hmem
  · intro hmem
    refine ⟨(f m, a), hmem, Option.map_eq_some_iff.2 ⟨m, (hg _ m).2 rfl, rfl⟩⟩

/-! ### Tables with translated values -/

theorem find?_mapValues (f : α → β) (t : Table κ α) (k : κ) :
    (t.mapValues f).find? k = (t.find? k).map f := by
  refine Option.ext fun b => ?_
  rw [find?_eq_some_iff, Option.map_eq_some_iff, rows_mapValues, List.mem_map]
  constructor
  · rintro ⟨⟨k', a⟩, hrow, heq⟩
    obtain ⟨rfl, rfl⟩ := Prod.mk.inj heq
    exact ⟨a, find?_eq_some_iff.2 hrow, rfl⟩
  · rintro ⟨a, ha, rfl⟩
    exact ⟨(k, a), find?_eq_some_iff.1 ha, rfl⟩

theorem insert_mapValues (f : α → β) (t : Table κ α) (k : κ) (a : α) :
    (t.mapValues f).insert k (f a) = (t.insert k a).mapValues f :=
  Table.ext (congrArg (fun u : Table κ β => (k, f a) :: u.rows) (filter_mapValues f t (· != k)))

theorem modify_mapValues (f : α → β) {g : α → α} {g' : β → β} (h : ∀ a, g' (f a) = f (g a))
    (t : Table κ α) (k : κ) :
    (t.mapValues f).modify k g' = (t.modify k g).mapValues f := by
  refine Table.ext ?_
  change (t.rows.map _).map _ = (t.rows.map _).map _
  rw [List.map_map, List.map_map]
  refine List.map_congr_left fun r _ => ?_
  rw [Function.comp_apply, Function.comp_apply]
  by_cases hk : r.1 = k
  · rw [if_pos hk, if_pos hk, h]
  · rw [if_neg hk, if_neg hk]

end Table

end PaperIndex
