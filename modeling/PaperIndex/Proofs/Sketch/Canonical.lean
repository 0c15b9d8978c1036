import Mathlib.Data.Finset.Sort
import Mathlib.Data.Finset.Lattice.Fold
import Mathlib.Order.Lattice.Nat
import PaperIndex.Proofs.Sketch.Ranks
import PaperIndex.Sketch.Basic

/-! # The sketch of a set of hashes

A sketch is determined by the set of the hashes that have been added to it: every register holds the
greatest rank of a hash of that register (`rankAt`), and the hashes are kept, in ascending order, as
long as there are at most 1024 of them.

* `empty_eq_ofSet`, `addHash_ofSet`: the empty sketch is that of the empty set, and adding a hash
  inserts it into the set;
* `count_ofSet`: the count is the size of the set while it is kept, and always its `cardinality`;
* `merge_ofSet`: merging two sketches gives the sketch of the union of their sets;
* `changesWith_ofSet`: adding a hash is reported as a change exactly if the sketch changes;
* `fit_ofSet`: the ranks in a sketch fit the estimate. -/

namespace PaperIndex.Sketch

/-- The greatest rank of a hash of a register, and 0 if there is none. -/
def rankAt (S : Finset UInt64) (i : Nat) : Nat := (S.filter fun h => indexOf h = i).sup rankOf

/-- **The sketch of a set of hashes.** -/
def ofSet (S : Finset UInt64) : Sketch :=
  ⟨Vector.ofFn fun i => rankAt S i, if S.card ≤ exactLimit then some (S.sort (· ≤ ·)) else none⟩

/-- The number of hashes in a set as a sketch counts it. -/
def cardinality (S : Finset UInt64) : Nat :=
  if S.card ≤ exactLimit then S.card else estimate ((List.range registerCount).map (rankAt S))

/-- The number of hashes in a set as a store answers it: a word of 64 bits with a sign. -/
def answered (S : Finset UInt64) : Int := Word.signed 64 (cardinality S)

/-- **A small set** is counted exactly. -/
theorem answered_of_card_le {S : Finset UInt64} (hS : S.card ≤ exactLimit) :
    answered S = S.card := by
  have hcard : (S.card : Int) ≤ exactLimit := Int.ofNat_le.2 hS
  unfold answered cardinality
  rw [if_pos hS]
  refine Word.signed_eq_self (by decide) (Word.isSigned_iff.2 ?_)
  exact ⟨(by decide : -(Word.count 63 : Int) ≤ 0).trans (Int.natCast_nonneg _),
    hcard.trans_lt (by decide)⟩

/-! ### Registers -/

theorem one_le_rankOf (h : UInt64) : 1 ≤ rankOf h := by
  unfold rankOf
  exact Nat.le_add_left 1 _

@[simp] theorem rankAt_empty (i : Nat) : rankAt ∅ i = 0 := by simp [rankAt]

theorem rankAt_le (S : Finset UInt64) (i : Nat) : rankAt S i ≤ 51 :=
  Finset.sup_le fun h _ => rankOf_le h

theorem rankAt_insert (S : Finset UInt64) (h : UInt64) (i : Nat) :
    rankAt (insert h S) i = if indexOf h = i then max (rankAt S i) (rankOf h) else rankAt S i := by
  unfold rankAt
  rw [Finset.filter_insert]
  split_ifs with hi
  · rw [Finset.sup_insert, sup_comm]
  · rfl

theorem rankAt_union (S T : Finset UInt64) (i : Nat) :
    rankAt (S ∪ T) i = max (rankAt S i) (rankAt T i) := by
  unfold rankAt
  rw [Finset.filter_union, Finset.sup_union]

theorem getElem_raise (v : Vector Nat registerCount) (i r j : Nat) (hj : j < registerCount) :
    (raise v i r)[j] = if i = j then max v[j] r else v[j] := by
  unfold raise
  by_cases hij : i = j
  · subst hij
    rw [dif_pos hj, if_pos rfl]
    split_ifs with hlt
    · rw [Vector.getElem_set_self]
      omega
    · omega
  · rw [if_neg hij]
    split_ifs
    · exact Vector.getElem_set_ne _ _ hij
    · rfl
    · rfl

theorem registers_ofSet (S : Finset UInt64) (i : Nat) (hi : i < registerCount) :
    (ofSet S).registers[i] = rankAt S i := by
  unfold ofSet
  exact Vector.getElem_ofFn hi

/-- **The ranks in a sketch** fit the estimate. -/
theorem fit_ofSet (S : Finset UInt64) : Fit (ofSet S).registers.toList := by
  refine fit_of_le fun rank hrank => ?_
  obtain ⟨i, hi, rfl⟩ := List.getElem_of_mem hrank
  rw [Vector.getElem_toList, registers_ofSet]
  exact rankAt_le S i

theorem raise_ofSet (S : Finset UInt64) (h : UInt64) :
    raise (ofSet S).registers (indexOf h) (rankOf h) = (ofSet (insert h S)).registers := by
  refine Vector.ext fun i hi => ?_
  rw [getElem_raise, registers_ofSet, registers_ofSet, rankAt_insert]

/-! ### Kept hashes -/

/-- An ascending list is the sorted list of its members. -/
theorem eq_sort_of_pairwise {hs : List UInt64} {S : Finset UInt64} (hp : hs.Pairwise (· < ·))
    (hmem : ∀ h, h ∈ hs ↔ h ∈ S) : hs = S.sort (· ≤ ·) := by
  have hperm : hs.Perm (S.sort (· ≤ ·)) := by
    refine (List.perm_ext_iff_of_nodup ?_ (Finset.sort_nodup S _)).2 fun h => ?_
    · exact hp.imp fun hlt he => UInt64.ne_of_lt hlt he
    · rw [hmem, Finset.mem_sort]
  have hsorted : hs.Pairwise (· ≤ ·) := hp.imp UInt64.le_of_lt
  refine hperm.eq_of_pairwise (fun a b _ _ hab hba => ?_) hsorted (Finset.pairwise_sort S _)
  exact UInt64.le_antisymm hab hba

theorem pairwise_sort_lt (S : Finset UInt64) : (S.sort (· ≤ ·)).Pairwise (· < ·) := by
  have hle := Finset.pairwise_sort S (· ≤ ·)
  have hne : (S.sort (· ≤ ·)).Pairwise (· ≠ ·) := Finset.sort_nodup S _
  exact hle.imp₂ (fun a b hab hne => UInt64.lt_of_le_of_ne hab hne) hne

theorem insertHash_sort (S : Finset UInt64) (h : UInt64) :
    insertHash h (S.sort (· ≤ ·)) = (insert h S).sort (· ≤ ·) := by
  refine eq_sort_of_pairwise (pairwise_insertHash (pairwise_sort_lt S)) fun x => ?_
  rw [mem_insertHash, Finset.mem_sort, Finset.mem_insert]

theorem foldl_insertHash_sort (S : Finset UInt64) (hs : List UInt64) :
    hs.foldl (fun hs h => insertHash h hs) (S.sort (· ≤ ·)) =
      (S ∪ hs.toFinset).sort (· ≤ ·) := by
  induction hs generalizing S with
  | nil => rw [List.toFinset_nil, Finset.union_empty, List.foldl_nil]
  | cons h hs ih =>
    rw [List.foldl_cons, insertHash_sort, ih, List.toFinset_cons, Finset.insert_union,
      Finset.union_insert]

theorem exact_ofSet (S : Finset UInt64) :
    (ofSet S).exact = if S.card ≤ exactLimit then some (S.sort (· ≤ ·)) else none := rfl

/-! ### Adding and counting -/

theorem empty_eq_ofSet : empty = ofSet ∅ := by
  have hreg : Vector.replicate registerCount 0 =
      Vector.ofFn fun i : Fin registerCount => rankAt ∅ i := by
    refine Vector.ext fun i hi => ?_
    rw [Vector.getElem_replicate, Vector.getElem_ofFn, rankAt_empty]
  unfold empty ofSet
  rw [hreg, Finset.card_empty, if_pos (Nat.zero_le _), Finset.sort_empty]

/-- **Adding a hash** to the sketch of a set gives the sketch of the set with the hash. -/
theorem addHash_ofSet (S : Finset UInt64) (h : UInt64) :
    (ofSet S).addHash h = ofSet (insert h S) := by
  have hexact : ((ofSet S).exact.bind fun hs => keepFew (insertHash h hs)) =
      (ofSet (insert h S)).exact := by
    have hcard : S.card ≤ (insert h S).card := Finset.card_le_card (Finset.subset_insert h S)
    unfold ofSet
    by_cases hS : S.card ≤ exactLimit
    · rw [if_pos hS, Option.bind_some, insertHash_sort, keepFew, Finset.length_sort]
    · rw [if_neg hS, if_neg (by omega), Option.bind_none]
  unfold addHash
  rw [raise_ofSet, hexact]

theorem count_ofSet (S : Finset UInt64) : (ofSet S).count = cardinality S := by
  have hlist : (ofSet S).registers.toList = (List.range registerCount).map (rankAt S) := by
    refine List.ext_getElem (by simp) fun i h1 h2 => ?_
    rw [Vector.getElem_toList, registers_ofSet, List.getElem_map, List.getElem_range]
  unfold count cardinality
  rw [hlist]
  by_cases hS : S.card ≤ exactLimit
  · simp [ofSet, hS]
  · simp [ofSet, hS]

/-! ### Merging -/

/-- The hashes of two sketches are kept together only if each of them keeps its own: a union is not
smaller than its parts. -/
theorem exact_merge_ofSet (S T : Finset UInt64) :
    ((ofSet S).merge (ofSet T)).exact = (ofSet (S ∪ T)).exact := by
  have hS : S.card ≤ (S ∪ T).card := Finset.card_le_card Finset.subset_union_left
  have hT : T.card ≤ (S ∪ T).card := Finset.card_le_card Finset.subset_union_right
  unfold merge
  simp only [exact_ofSet]
  by_cases hS' : S.card ≤ exactLimit
  · by_cases hT' : T.card ≤ exactLimit
    · simp only [if_pos hS', if_pos hT', foldl_insertHash_sort, Finset.sort_toFinset, keepFew,
        Finset.length_sort]
    · rw [if_pos hS', if_neg hT', if_neg (show ¬(S ∪ T).card ≤ exactLimit by omega)]
  · rw [if_neg hS', if_neg (show ¬(S ∪ T).card ≤ exactLimit by omega)]

/-- **Merging** the sketches of two sets gives the sketch of their union. -/
theorem merge_ofSet (S T : Finset UInt64) : (ofSet S).merge (ofSet T) = ofSet (S ∪ T) := by
  have hregisters : Vector.zipWith max (ofSet S).registers (ofSet T).registers =
      (ofSet (S ∪ T)).registers := by
    refine Vector.ext fun i hi => ?_
    rw [Vector.getElem_zipWith, registers_ofSet, registers_ofSet, registers_ofSet, rankAt_union]
  calc (ofSet S).merge (ofSet T)
      = ⟨Vector.zipWith max (ofSet S).registers (ofSet T).registers,
          ((ofSet S).merge (ofSet T)).exact⟩ := rfl
    _ = ofSet (S ∪ T) := by rw [hregisters, exact_merge_ofSet]

/-! ### Changes -/

theorem getD_registers_ofSet (S : Finset UInt64) (h : UInt64) :
    (ofSet S).registers.toArray.getD (indexOf h) 0 = rankAt S (indexOf h) := by
  have hsize : indexOf h < (ofSet S).registers.toArray.size := by
    rw [Vector.size_toArray]
    exact indexOf_lt h
  rw [← registers_ofSet S (indexOf h) (indexOf_lt h), ← Vector.getElem_toArray,
    Array.getD_eq_getD_getElem?, Array.getElem?_eq_getElem hsize, Option.getD_some]

theorem changesWith_ofSet_iff (S : Finset UInt64) (h : UInt64) :
    (ofSet S).changesWith h = true ↔
      (S.card ≤ exactLimit ∧ h ∉ S) ∨ rankAt S (indexOf h) < rankOf h := by
  unfold changesWith
  rw [exact_ofSet, getD_registers_ofSet]
  by_cases hS : S.card ≤ exactLimit <;> simp [hS]

theorem ofSet_insert_ne_of_lt {S : Finset UInt64} {h : UInt64}
    (hlt : rankAt S (indexOf h) < rankOf h) : ofSet (insert h S) ≠ ofSet S := by
  have hi : indexOf h < registerCount := indexOf_lt h
  intro heq
  have hrank := congrArg (fun s => s.registers[indexOf h]) heq
  simp only [registers_ofSet, rankAt_insert, if_true] at hrank
  omega

theorem ofSet_insert_ne_of_not_mem {S : Finset UInt64} {h : UInt64} (hS : S.card ≤ exactLimit)
    (hh : h ∉ S) : ofSet (insert h S) ≠ ofSet S := by
  intro heq
  have hexact := congrArg exact heq
  rw [exact_ofSet, exact_ofSet, if_pos hS] at hexact
  split at hexact
  · have hmem : h ∈ (insert h S).sort (· ≤ ·) :=
      (Finset.mem_sort _).2 (Finset.mem_insert_self h S)
    rw [Option.some.inj hexact, Finset.mem_sort] at hmem
    exact hh hmem
  · cases hexact

/-- Once the hashes are no longer kept, a hash that raises no register leaves no trace. -/
theorem ofSet_insert_eq {S : Finset UInt64} {h : UInt64} (hS : exactLimit < S.card)
    (hle : rankOf h ≤ rankAt S (indexOf h)) : ofSet (insert h S) = ofSet S := by
  have hcard : S.card ≤ (insert h S).card := Finset.card_le_card (Finset.subset_insert h S)
  have hrank : ∀ i, rankAt (insert h S) i = rankAt S i := by
    intro i
    rw [rankAt_insert]
    split_ifs with hi
    · subst hi
      exact max_eq_left hle
    · rfl
  unfold ofSet
  simp only [hrank, if_neg hS.not_ge, if_neg (hS.trans_le hcard).not_ge]

/-- **Adding a hash** is reported as a change exactly if the sketch changes. -/
theorem changesWith_ofSet (S : Finset UInt64) (h : UInt64) :
    (ofSet S).changesWith h = true ↔ (ofSet S).addHash h ≠ ofSet S := by
  rw [changesWith_ofSet_iff, addHash_ofSet]
  constructor
  · rintro (⟨hS, hh⟩ | hlt)
    · exact ofSet_insert_ne_of_not_mem hS hh
    · exact ofSet_insert_ne_of_lt hlt
  · intro hne
    by_contra hsame
    rw [not_or, not_and_not_right, not_lt] at hsame
    obtain ⟨hkept, hle⟩ := hsame
    refine hne ?_
    by_cases hS : S.card ≤ exactLimit
    · rw [Finset.insert_eq_of_mem (hkept hS)]
    · exact ofSet_insert_eq (not_le.1 hS) hle

end PaperIndex.Sketch
