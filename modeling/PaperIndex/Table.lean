/-! # Tables

A table is a list of rows with at most one row for each key; the row written last comes first.
It is the common ground of the stores: a map from names to values and a relation with a primary
key are both tables. Every operation is described by what `find?` answers after it. -/

namespace PaperIndex

/-- Rows under distinct keys. -/
structure Table (κ α : Type) where
  /-- The rows, the one written last first. -/
  rows : List (κ × α)
  /-- No key has two rows. -/
  nodup : (rows.map Prod.fst).Nodup
deriving DecidableEq, Repr

namespace Table

variable {κ α : Type}

@[ext] theorem ext {s t : Table κ α} (h : s.rows = t.rows) : s = t := by
  cases s; cases t; simp_all

/-- The table without rows. -/
def empty : Table κ α := ⟨[], by simp⟩

instance : Inhabited (Table κ α) := ⟨empty⟩

/-- The number of rows. -/
def size (t : Table κ α) : Nat := t.rows.length

/-- The keys, in row order. -/
def keys (t : Table κ α) : List κ := t.rows.map Prod.fst

/-- Keeps the rows that pass a test, in their order. -/
@[inline] def filter (p : κ → α → Bool) (t : Table κ α) : Table κ α :=
  if t.rows.all fun r => p r.1 r.2 then t
  else ⟨t.rows.filter fun r => p r.1 r.2, t.nodup.sublist (List.filter_sublist.map _)⟩

@[simp] theorem rows_empty : (empty : Table κ α).rows = [] := rfl

@[simp] theorem rows_filter (p : κ → α → Bool) (t : Table κ α) :
    (t.filter p).rows = t.rows.filter fun r => p r.1 r.2 := by
  unfold filter
  split
  · next h => exact (List.filter_eq_self.2 (List.all_eq_true.1 h)).symm
  · rfl

variable [DecidableEq κ]

/-- The value under a key. -/
@[inline] def find? (t : Table κ α) (k : κ) : Option α := t.rows.lookup k

/-- Whether a key has a row. -/
@[inline] def contains (t : Table κ α) (k : κ) : Bool := t.rows.any fun r => r.1 == k

/-- Removes the row of a key, if there is one. -/
@[inline] def erase (t : Table κ α) (k : κ) : Table κ α := t.filter fun k' _ => k' != k

/-- Writes the row of a key, in front of all others. -/
@[inline] def insert (t : Table κ α) (k : κ) (a : α) : Table κ α where
  rows := (k, a) :: (t.erase k).rows
  nodup := by
    refine List.nodup_cons.2 ⟨?_, (t.erase k).nodup⟩
    simp [erase]

/-- Changes the value of a key in place, if it has one. -/
@[inline] def modify (t : Table κ α) (k : κ) (f : α → α) : Table κ α where
  rows := t.rows.map fun r => if r.1 = k then (r.1, f r.2) else r
  nodup := by
    have : (t.rows.map fun r => if r.1 = k then (r.1, f r.2) else r).map Prod.fst =
        t.rows.map Prod.fst := by
      rw [List.map_map]
      refine List.map_congr_left fun r _ => ?_
      simp only [Function.comp]
      split <;> rfl
    rw [this]
    exact t.nodup

/-- The table of the given rows; of several rows with one key the first one counts. -/
def ofRows (rows : List (κ × α)) : Table κ α := rows.foldr (fun r t => t.insert r.1 r.2) empty

/-! ### The view -/

theorem find?_eq_some_iff {t : Table κ α} {k : κ} {a : α} :
    t.find? k = some a ↔ (k, a) ∈ t.rows := by
  obtain ⟨rows, nodup⟩ := t
  simp only [find?]
  induction rows with
  | nil => simp
  | cons r rows ih =>
    obtain ⟨k', a'⟩ := r
    simp only [List.map_cons, List.nodup_cons, List.mem_map, Prod.exists] at nodup
    rw [List.lookup_cons]
    by_cases h : k = k'
    · subst h
      simp only [beq_self_eq_true, List.mem_cons, Prod.mk.injEq, true_and]
      constructor
      · intro h; exact Or.inl (Option.some.inj h).symm
      · rintro (rfl | h)
        · rfl
        · exact absurd ⟨k, a, h, rfl⟩ nodup.1
    · simp only [beq_eq_false_iff_ne.2 h, List.mem_cons, Prod.mk.injEq, h, false_and, false_or]
      exact ih nodup.2

theorem find?_eq_none_iff {t : Table κ α} {k : κ} : t.find? k = none ↔ k ∉ t.keys := by
  rw [Option.eq_none_iff_forall_ne_some]
  simp [find?_eq_some_iff, keys]

@[simp] theorem contains_iff {t : Table κ α} {k : κ} : t.contains k = true ↔ k ∈ t.keys := by
  simp [contains, keys]

/-- Two tables with the same answers hold the same rows. -/
theorem mem_rows_congr {s t : Table κ α} (h : ∀ k, s.find? k = t.find? k) (r : κ × α) :
    r ∈ s.rows ↔ r ∈ t.rows := by
  rw [← find?_eq_some_iff (t := s), ← find?_eq_some_iff (t := t), h]

@[simp] theorem find?_empty (k : κ) : (empty : Table κ α).find? k = none := rfl

theorem find?_filter (p : κ → α → Bool) (t : Table κ α) (k : κ) :
    (t.filter p).find? k = (t.find? k).filter (p k) := by
  apply Option.ext
  intro a
  rw [find?_eq_some_iff, rows_filter, List.mem_filter, Option.filter_eq_some_iff,
    find?_eq_some_iff]

theorem find?_erase (t : Table κ α) (k k' : κ) :
    (t.erase k).find? k' = if k' = k then none else t.find? k' := by
  rw [erase, find?_filter]
  split
  · next h => subst h; cases t.find? k' <;> simp [Option.filter]
  · next h => cases t.find? k' <;> simp [Option.filter, h]

theorem find?_insert (t : Table κ α) (k : κ) (a : α) (k' : κ) :
    (t.insert k a).find? k' = if k' = k then some a else t.find? k' := by
  have h : (t.insert k a).find? k' = if k' == k then some a else (t.erase k).find? k' := by
    simp only [insert, find?, List.lookup_cons]
    split <;> simp_all
  rw [h, find?_erase]
  by_cases hk : k' = k <;> simp [hk]

theorem find?_modify (t : Table κ α) (k : κ) (f : α → α) (k' : κ) :
    (t.modify k f).find? k' = if k' = k then (t.find? k').map f else t.find? k' := by
  apply Option.ext
  intro a
  rw [find?_eq_some_iff]
  by_cases hk : k' = k
  · subst hk
    simp only [modify, List.mem_map, Prod.exists, if_true, Option.map_eq_some_iff,
      find?_eq_some_iff]
    constructor
    · rintro ⟨k'', b, hb, h⟩
      split at h
      · next h' => simp only [Prod.mk.injEq] at h h'; obtain ⟨rfl, rfl⟩ := h; exact ⟨b, hb, rfl⟩
      · next h' => simp only [Prod.mk.injEq] at h h'; exact absurd h.1 h'
    · rintro ⟨b, hb, rfl⟩
      exact ⟨k', b, hb, by simp⟩
  · simp only [modify, List.mem_map, Prod.exists, if_neg hk, find?_eq_some_iff]
    constructor
    · rintro ⟨k'', b, hb, h⟩
      split at h
      · next h' => simp only [Prod.mk.injEq] at h h'; exact absurd (h.1 ▸ h') hk
      · next h' => simp only [Prod.mk.injEq] at h; obtain ⟨rfl, rfl⟩ := h; exact hb
    · intro h
      exact ⟨k', a, h, by simp [hk]⟩

theorem rows_insert_of_not_mem {t : Table κ α} {k : κ} (h : k ∉ t.keys) (a : α) :
    (t.insert k a).rows = (k, a) :: t.rows := by
  simp only [insert, erase, rows_filter, List.cons.injEq, true_and, List.filter_eq_self]
  intro r hr
  simp only [bne_iff_ne, ne_eq]
  rintro rfl
  exact h (List.mem_map_of_mem hr)

theorem rows_ofRows {rows : List (κ × α)} (h : (rows.map Prod.fst).Nodup) :
    (ofRows rows).rows = rows := by
  induction rows with
  | nil => rfl
  | cons r rows ih =>
    rw [List.map_cons, List.nodup_cons] at h
    have hr : r.1 ∉ (ofRows rows).keys := by
      rw [keys, ih h.2]
      exact h.1
    rw [ofRows, List.foldr_cons]
    exact (rows_insert_of_not_mem hr r.2).trans (congrArg _ (ih h.2))

/-- A table is the table of its rows. -/
theorem ofRows_rows (t : Table κ α) : ofRows t.rows = t := Table.ext (rows_ofRows t.nodup)

end Table

end PaperIndex
