import PaperIndex.Proofs.Graph.Listing

/-! # Co-citations are shared citers

Two papers are co-cited by the papers that cite both of them (`sharedCiters`). The walk over the
graph in memory meets a paper once for each shared citer (`mem_walk_rows`), and the groups of the
join of the relation with itself have as many distinct citers (`mem_groups_join`). The ranking does
not depend on the order of the counts (`rank_congr`), so both graphs rank alike (`coCited_eq`). In a
ranking each paper stands once, in strict order (`pairwise_rank`), and a greater threshold leaves
out those that do not reach it (`filter_rank`). -/

namespace PaperIndex.Graph

open Time (Instant)

/-! ### The ranking -/

theorem rankOrder_iff (a b : CoCitation) : rankOrder a b = true ↔
    OrderDual.toDual a.count < OrderDual.toDual b.count ∨
      OrderDual.toDual a.count = OrderDual.toDual b.count ∧ a.uri ≤ b.uri := by
  simp [rankOrder]

/-- A co-citation comes before another one in a ranking. -/
def RankedBefore (a b : CoCitation) : Prop := b.count < a.count ∨ a.count = b.count ∧ a.uri < b.uri

theorem mem_rank {counts : List (String × Nat)} {threshold : Nat} {x : CoCitation} :
    x ∈ rank counts threshold ↔ (x.uri, x.count) ∈ counts ∧ threshold ≤ x.count := by
  rw [rank, List.mem_mergeSort, List.mem_map]
  constructor
  · rintro ⟨r, hr, rfl⟩
    obtain ⟨hmem, hreaches⟩ := List.mem_filter.1 hr
    exact ⟨hmem, of_decide_eq_true hreaches⟩
  · rintro ⟨hmem, hreaches⟩
    exact ⟨_, List.mem_filter.2 ⟨hmem, decide_eq_true hreaches⟩, rfl⟩

theorem pairwise_rankOrder (counts : List (String × Nat)) (threshold : Nat) :
    (rank counts threshold).Pairwise fun a b => rankOrder a b = true :=
  List.pairwise_mergeSort (twoKeys_trans rankOrder_iff) (twoKeys_total rankOrder_iff) _

/-- Rankings of the same co-citations are the same: the order is a total one. -/
theorem eq_of_perm_rank {counts : List (String × Nat)} {threshold : Nat} {cs : List CoCitation}
    (hperm : cs.Perm (rank counts threshold))
    (hordered : cs.Pairwise fun a b => rankOrder a b = true) : cs = rank counts threshold := by
  refine hperm.eq_of_pairwise (fun a b _ _ hab hba => ?_) hordered
    (pairwise_rankOrder counts threshold)
  obtain ⟨hcount, huri⟩ := twoKeys_antisymm rankOrder_iff hab hba
  cases a; cases b
  exact CoCitation.mk.injEq .. ▸ ⟨huri, OrderDual.toDual.injective hcount⟩

theorem rank_congr {counts counts' : List (String × Nat)} (h : counts.Perm counts')
    (threshold : Nat) : rank counts threshold = rank counts' threshold := by
  refine eq_of_perm_rank ?_ (pairwise_rankOrder counts threshold)
  exact (List.mergeSort_perm _ _).trans
    (((h.filter _).map _).trans (List.mergeSort_perm _ _).symm)

/-- **A greater threshold** leaves out the co-citations that do not reach it. -/
theorem filter_rank (counts : List (String × Nat)) {threshold threshold' : Nat}
    (h : threshold ≤ threshold') :
    (rank counts threshold).filter (threshold' ≤ ·.count) = rank counts threshold' := by
  have hfilter : (counts.filter fun r => threshold ≤ r.2).filter (fun r => threshold' ≤ r.2) =
      counts.filter fun r => threshold' ≤ r.2 := by
    rw [List.filter_filter]
    refine List.filter_congr fun r _ => ?_
    rw [Bool.and_eq_left_iff_imp]
    simpa using h.trans
  refine eq_of_perm_rank ?_ ((pairwise_rankOrder counts threshold).filter _)
  refine ((List.mergeSort_perm _ _).filter _).trans ?_
  rw [List.filter_map]
  exact hfilter ▸ (List.mergeSort_perm _ _).symm

section Distinct
variable {counts : List (String × Nat)} (h : (counts.map Prod.fst).Nodup) (threshold : Nat)
include h

theorem nodup_uris_reaching :
    (((counts.filter fun r => threshold ≤ r.2).map fun r => CoCitation.mk r.1 r.2).map
      CoCitation.uri).Nodup := by
  rw [List.map_map]
  exact h.sublist (List.filter_sublist.map _)

theorem nodup_uris_rank : ((rank counts threshold).map CoCitation.uri).Nodup :=
  ((List.mergeSort_perm _ _).map _).nodup_iff.2 (nodup_uris_reaching h threshold)

/-- **A ranking of papers that are counted once** is in strict order. -/
theorem pairwise_rank : (rank counts threshold).Pairwise RankedBefore :=
  pairwise_twoKeys rankOrder_iff (nodup_uris_reaching h threshold)

end Distinct

/-! ### Shared citers -/

namespace Memory

/-- **The number of papers that cite both `b` and `c`.** -/
def sharedCiters (m : Memory) (b c : String) : Nat :=
  m.edges.rows.countP fun x => x.1.2 == b && m.edges.contains (x.1.1, c)

/-- The papers that cite both `b` and `c`, by their citations of `b`. -/
def citersOfBoth (m : Memory) (b c : String) : List String :=
  (m.edges.rows.filter fun x => x.1.2 == b && m.edges.contains (x.1.1, c)).map fun x => x.1.1

theorem length_citersOfBoth (m : Memory) (b c : String) :
    (m.citersOfBoth b c).length = m.sharedCiters b c := by
  rw [citersOfBoth, List.length_map, sharedCiters, List.countP_eq_length_filter]

/-- The citations of `b` differ in the citer. -/
theorem nodup_citersOfBoth (m : Memory) (b c : String) : (m.citersOfBoth b c).Nodup := by
  refine List.Nodup.map_on (fun x hx y hy hxy => ?_) (m.edges.nodup_rows.filter _)
  have hx' := (Bool.and_eq_true_iff.1 (List.mem_filter.1 hx).2).1
  have hy' := (Bool.and_eq_true_iff.1 (List.mem_filter.1 hy).2).1
  refine List.inj_on_of_nodup_map m.edges.nodup (List.mem_of_mem_filter hx)
    (List.mem_of_mem_filter hy) (Prod.ext hxy ?_)
  exact (eq_of_beq hx').trans (eq_of_beq hy').symm

theorem mem_citersOfBoth {m : Memory} {a b c : String} : a ∈ m.citersOfBoth b c ↔
    m.edges.contains (a, b) = true ∧ m.edges.contains (a, c) = true := by
  constructor
  · intro hmem
    obtain ⟨x, hx, rfl⟩ := List.mem_map.1 hmem
    obtain ⟨hrow, htest⟩ := List.mem_filter.1 hx
    obtain ⟨hcited, hshared⟩ := Bool.and_eq_true_iff.1 htest
    refine ⟨Table.contains_iff.2 ?_, hshared⟩
    exact List.mem_map.2 ⟨x, hrow, Prod.ext rfl (eq_of_beq hcited)⟩
  · rintro ⟨hb, hshared⟩
    obtain ⟨x, hx, hkey⟩ := List.mem_map.1 (Table.contains_iff.1 hb)
    refine List.mem_map.2 ⟨x, List.mem_filter.2 ⟨hx, ?_⟩, congrArg Prod.fst hkey⟩
    rw [hkey]
    exact Bool.and_eq_true_iff.2 ⟨beq_self_eq_true b, hshared⟩

theorem count_keys (m : Memory) (key : String × String) :
    m.edges.keys.count key = if m.edges.contains key then 1 else 0 := by
  have hnodup : m.edges.keys.Nodup := m.edges.nodup
  rw [hnodup.count]
  simp only [Table.contains_iff]

/-! ### The walk -/

theorem find?_foldl_tally (names : List String) (counts : Table String Nat) (c : String) :
    ((names.foldl tally counts).find? c).getD 0 = (counts.find? c).getD 0 + names.count c := by
  induction names generalizing counts with
  | nil => rfl
  | cons name names ih =>
    rw [List.foldl_cons, ih, tally, Table.find?_insert, List.count_cons]
    by_cases hc : c = name
    · subst hc
      simp only [if_true, Option.getD_some, beq_self_eq_true]
      omega
    · rw [if_neg hc]
      simp [Ne.symm hc]

theorem mem_keys_foldl_tally {names : List String} {counts : Table String Nat} {c : String} :
    c ∈ (names.foldl tally counts).keys ↔ c ∈ names ∨ c ∈ counts.keys := by
  induction names generalizing counts with
  | nil => simp
  | cons name names ih =>
    rw [List.foldl_cons, ih, tally, Table.mem_keys_iff, Table.find?_insert, Table.mem_keys_iff,
      List.mem_cons]
    by_cases hc : c = name <;> simp [hc]

/-- The papers that are met on the walk from `b`, as often as they are met. -/
def walkNames (m : Memory) (b : String) : List String :=
  (m.citingEdges b).flatMap fun citer =>
    ((m.referenceEdges citer.citing).map (·.cited)).filter (· ≠ b)

theorem slice_all {α : Type} {xs : List α} (h : xs.length ≤ maxLimit) :
    slice (min xs.length maxLimit) 0 xs = xs := by
  rw [slice, List.drop_zero, Nat.min_eq_left h, List.take_length]

theorem walk_eq {m : Memory} (hsize : m.edges.size ≤ maxLimit) (b : String) :
    m.walk b = (m.walkNames b).foldl tally .empty := by
  -- A listing is not cut off, as there are no more citations in all than one may have.
  have hciting : (m.citingEdges b).length ≤ maxLimit := by
    rw [length_citingEdges]
    exact List.countP_le_length.trans hsize
  have hreferences : ∀ a, (m.referenceEdges a).length ≤ maxLimit := by
    intro a
    rw [length_referenceEdges]
    exact List.countP_le_length.trans hsize
  unfold walk walkNames
  simp only [← length_citingEdges, ← length_referenceEdges, slice_all hciting,
    slice_all (hreferences _)]
  rw [List.foldl_flatMap]
  congr 1
  funext counts citer
  rw [List.foldl_filter, List.foldl_map]
  congr 1
  funext counts e
  by_cases he : e.cited = b <;> simp [he]

/-- A citer's references name `c` once or never. -/
theorem count_references (m : Memory) (a c : String) :
    ((m.referenceEdges a).map (·.cited)).count c = if m.edges.contains (a, c) then 1 else 0 := by
  rw [← count_keys, List.count, List.count, List.countP_map, referenceEdges,
    (List.mergeSort_perm _ _).countP_eq, List.countP_map, List.countP_filter, Table.keys,
    List.countP_map]
  refine List.countP_congr fun x _ => ?_
  simp [edgeOf, Prod.ext_iff, and_comm]

theorem count_flatMap_eq {α : Type} {c : String} {f : α → List String} {p : α → Bool}
    (h : ∀ x, (f x).count c = if p x then 1 else 0) (xs : List α) :
    (xs.flatMap f).count c = xs.countP p := by
  induction xs with
  | nil => rfl
  | cons x xs ih =>
    rw [List.flatMap_cons, List.count_append, ih, h, List.countP_cons, Nat.add_comm]

/-- **The walk meets a paper** once for each shared citer. -/
theorem count_walkNames (m : Memory) (b c : String) :
    (m.walkNames b).count c = if c = b then 0 else m.sharedCiters b c := by
  unfold walkNames
  by_cases hc : c = b
  · rw [if_pos hc, List.count_eq_zero, List.mem_flatMap]
    rintro ⟨citer, -, hmem⟩
    simp [hc] at hmem
  · rw [if_neg hc]
    refine (count_flatMap_eq (p := fun e => m.edges.contains (e.citing, c))
      (fun e => ?_) _).trans ?_
    · rw [List.count_filter (by simpa using hc), count_references]
    · rw [citingEdges, (List.mergeSort_perm _ _).countP_eq, List.countP_map, List.countP_filter,
        sharedCiters]
      refine List.countP_congr fun x _ => ?_
      simp [edgeOf, and_comm]

/-- **The counts of the walk** are those of the shared citers. -/
theorem mem_walk_rows {m : Memory} (hsize : m.edges.size ≤ maxLimit) {b c : String} {n : Nat} :
    (c, n) ∈ (m.walk b).rows ↔ c ≠ b ∧ n = m.sharedCiters b c ∧ 0 < n := by
  have hcount : ((m.walk b).find? c).getD 0 = if c = b then 0 else m.sharedCiters b c := by
    rw [walk_eq hsize, find?_foldl_tally, count_walkNames]
    exact Nat.zero_add _
  have hkeys : (m.walk b).find? c ≠ none ↔ 0 < if c = b then 0 else m.sharedCiters b c := by
    rw [← Table.mem_keys_iff, walk_eq hsize, mem_keys_foldl_tally, ← count_walkNames,
      List.count_pos_iff]
    simp [Table.keys]
  rw [← Table.find?_eq_some_iff]
  by_cases hc : c = b
  · rw [if_pos hc] at hkeys
    simp [hc ▸ not_not.1 (mt hkeys.1 (lt_irrefl 0)), hc]
  · rw [if_neg hc] at hcount hkeys
    constructor
    · intro h
      rw [h, Option.getD_some] at hcount
      rw [h] at hkeys
      exact ⟨hc, hcount, hcount ▸ hkeys.1 (Option.some_ne_none n)⟩
    · rintro ⟨-, rfl, hpos⟩
      obtain ⟨k, hk⟩ := Option.ne_none_iff_exists'.1 (hkeys.2 hpos)
      rw [hk, Option.getD_some] at hcount
      rw [hk, hcount]

end Memory

/-! ### The join -/

namespace Relational

variable {m : Memory} {r : Relational}

theorem mem_join (h : Mirrors m r) {b c a : String} :
    (c, a) ∈ r.join b ↔
      c ≠ b ∧ m.edges.contains (a, b) = true ∧ m.edges.contains (a, c) = true := by
  have hkeys : ∀ key, m.edges.contains key = true ↔ ∃ row, (key, row) ∈ r.citations.rows := by
    intro key
    rw [← h.contains, Table.contains_iff, Table.keys, List.mem_map]
    constructor
    · rintro ⟨row, hrow, rfl⟩
      exact ⟨row.2, hrow⟩
    · rintro ⟨row, hrow⟩
      exact ⟨_, hrow, rfl⟩
  rw [hkeys, hkeys, join, List.mem_flatMap]
  constructor
  · rintro ⟨⟨⟨citing, cited⟩, row⟩, htarget, hmem⟩
    split at hmem
    · next hcited =>
      obtain ⟨⟨⟨citing', cited'⟩, row'⟩, hother, heq⟩ := List.mem_map.1 hmem
      obtain ⟨hrow', hends⟩ := List.mem_filter.1 hother
      simp only [Bool.and_eq_true, beq_iff_eq, bne_iff_ne] at hends hcited
      obtain ⟨rfl, rfl⟩ := Prod.mk.inj heq
      obtain ⟨rfl, hne⟩ := hends
      exact ⟨hne, ⟨row, hcited ▸ htarget⟩, ⟨row', hrow'⟩⟩
    · cases hmem
  · rintro ⟨hne, ⟨row, htarget⟩, ⟨row', hother⟩⟩
    refine ⟨_, htarget, ?_⟩
    rw [if_pos (beq_self_eq_true b)]
    refine List.mem_map.2 ⟨_, List.mem_filter.2 ⟨hother, ?_⟩, rfl⟩
    simpa using hne

/-- **The distinct citers of a group** are the shared citers. -/
theorem length_citers (h : Mirrors m r) {b c : String} (hc : c ≠ b) :
    (((r.join b).filter fun p => p.1 == c).map Prod.snd).eraseDups.length =
      m.sharedCiters b c := by
  rw [← Memory.length_citersOfBoth]
  refine ((List.perm_ext_iff_of_nodup (nodup_eraseDups _)
    (m.nodup_citersOfBoth b c)).2 fun a => ?_).length_eq
  have hleft : a ∈ ((r.join b).filter fun p => p.1 == c).map Prod.snd ↔ (c, a) ∈ r.join b := by
    simp
  rw [List.mem_eraseDups, hleft, Memory.mem_citersOfBoth, mem_join h]
  exact and_iff_right hc

/-- **The groups of the join** are those of the shared citers. -/
theorem mem_groups_join (h : Mirrors m r) {b c : String} {n : Nat} :
    (c, n) ∈ groups (r.join b) ↔ c ≠ b ∧ n = m.sharedCiters b c ∧ 0 < n := by
  have hpos : c ≠ b → ((∃ a, (c, a) ∈ r.join b) ↔ 0 < m.sharedCiters b c) := by
    intro hc
    rw [← length_citers h hc, List.length_pos_iff_exists_mem]
    refine exists_congr fun a => ?_
    simp [List.mem_eraseDups]
  have hmem : (c, n) ∈ groups (r.join b) ↔ (∃ a, (c, a) ∈ r.join b) ∧
      n = (((r.join b).filter fun p => p.1 == c).map Prod.snd).eraseDups.length := by
    simp only [groups, List.mem_map, List.mem_eraseDups, Prod.mk.injEq]
    constructor
    · rintro ⟨_, ⟨⟨_, a⟩, hpair, rfl⟩, rfl, rfl⟩
      exact ⟨⟨a, hpair⟩, rfl⟩
    · rintro ⟨⟨a, hpair⟩, rfl⟩
      exact ⟨c, ⟨(c, a), hpair, rfl⟩, rfl, rfl⟩
  rw [hmem]
  constructor
  · rintro ⟨⟨a, hpair⟩, rfl⟩
    have hc := ((mem_join h).1 hpair).1
    rw [length_citers h hc]
    exact ⟨hc, rfl, (hpos hc).1 ⟨a, hpair⟩⟩
  · rintro ⟨hc, rfl, hn⟩
    exact ⟨(hpos hc).2 hn, (length_citers h hc).symm⟩

theorem nodup_groups (pairs : List (String × String)) : (groups pairs).Nodup := by
  refine (nodup_eraseDups _).map fun c c' hcc => ?_
  exact congrArg Prod.fst hcc

/-- **Co-citations** are ranked alike on both sides. -/
theorem coCited_eq (h : Mirrors m r) (hsize : m.edges.size ≤ maxLimit) (b : String)
    (threshold : Nat) : store.coCited b threshold r = Memory.store.coCited b threshold m := by
  refine congrArg Except.ok (rank_congr ?_ threshold)
  refine (List.perm_ext_iff_of_nodup (nodup_groups _) (m.walk b).nodup_rows).2 ?_
  rintro ⟨c, n⟩
  rw [mem_groups_join h, Memory.mem_walk_rows hsize]

end Relational

end PaperIndex.Graph
