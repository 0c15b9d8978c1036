import Mathlib.Data.Finset.Card
import PaperIndex.Counter.Relational
import PaperIndex.Proofs.Table

/-! # The rows of a key

The five relations of the relational counter store are seen one key at a time: `rowsAt` collects
all rows of a key, each under the rest of its primary key. An operation changes the rows of its own
key only, and how it changes them depends on these rows alone (`rowsAt_apply`); the purge leaves no
rows of the keys that have expired (`rowsAt_purge`). What the store counts over its relations is
counted over the rows of a key (`hashCount_eq`, `countP_scores`, `ranks_eq`). -/

namespace PaperIndex.Counter

/-- All rows of a key. -/
@[ext] structure Rows where
  /-- The expiry that the key is listed with, if it is listed. -/
  expiry : Option (Option Int)
  tally : Option Cell
  rank : Nat → Option Nat
  kept : Finset UInt64
  score : String → Option Int

namespace Rows

/-- No rows at all. -/
def none : Rows := ⟨.none, .none, fun _ => .none, ∅, fun _ => .none⟩

/-- The rows after the key is listed. -/
def touched (rows : Rows) : Rows := { rows with expiry := some (rows.expiry.getD .none) }

/-- No row but hashes and the key's own. -/
def Bare (rows : Rows) : Prop :=
  (∀ m, rows.score m = .none) ∧ rows.tally = .none ∧ ∀ i, rows.rank i = .none

/-- The rank of a register that is raised. -/
def raised (old : Option Nat) (rank : Nat) : Nat := (old.map (max · rank)).getD rank

/-- The rows after the scores up to a bound are removed. -/
def trimmed (bound : Int) (rows : Rows) : Rows :=
  { rows with score := fun m => (rows.score m).filter (bound < ·) }

open Classical in
/-- The rows of a key after an operation on it. -/
noncomputable def apply (now : Int) (rows : Rows) : Op → Rows
  | .add _ delta => { rows.touched with tally := some (.added rows.tally delta) }
  | .observe _ member =>
    let h := Sketch.hashOf member
    { rows.touched with
      rank := fun i => if i = Sketch.indexOf h then some (raised (rows.rank i) (Sketch.rankOf h))
        else rows.rank i
      kept := if rows.kept.card ≤ Sketch.exactLimit then insert h rows.kept else rows.kept }
  | .place _ member score =>
    { rows.touched with score := fun m => if m = member then some score else rows.score m }
  | .trim _ bound =>
    if (rows.trimmed bound).Bare then { rows.trimmed bound with expiry := .none }
    else rows.trimmed bound
  | .expire _ instant =>
    if instant ≤ now then none
    else { rows with expiry := rows.expiry.map fun _ => some instant }

theorem apply_trim_of_bare {rows : Rows} {bound : Int} (h : (rows.trimmed bound).Bare) (now : Int)
    (k : String) :
    rows.apply now (.trim k bound) = { rows.trimmed bound with expiry := .none } := if_pos h

theorem apply_trim_of_not_bare {rows : Rows} {bound : Int} (h : ¬(rows.trimmed bound).Bare)
    (now : Int) (k : String) : rows.apply now (.trim k bound) = rows.trimmed bound := if_neg h

end Rows

namespace Relational

/-! ### The parts of the relations -/

theorem memberPart (key : String) (k : MemberKey) (m : String) :
    (if k.key = key then some k.member else none) = some m ↔ (⟨key, m⟩ : MemberKey) = k := by
  obtain ⟨key', m'⟩ := k
  by_cases h : key' = key
  · simp [h, eq_comm]
  · simp [h, Ne.symm h]

theorem hashPart (key : String) (k : HashKey) (h : UInt64) :
    (if k.key = key then some k.hash else none) = some h ↔ (⟨key, h⟩ : HashKey) = k := by
  obtain ⟨key', h'⟩ := k
  by_cases hk : key' = key
  · simp [hk, eq_comm]
  · simp [hk, Ne.symm hk]

theorem registerPart (key : String) (k : RegisterKey) (i : Nat) :
    (if k.key = key then some k.index else none) = some i ↔ (⟨key, i⟩ : RegisterKey) = k := by
  obtain ⟨key', i'⟩ := k
  by_cases hk : key' = key
  · simp [hk, eq_comm]
  · simp [hk, Ne.symm hk]

/-- The scored members of a key. -/
def scoresOf (r : Relational) (key : String) : Table String Int :=
  r.scores.part _ _ (memberPart key)

/-- The hashes of a key. -/
def hashesOf (r : Relational) (key : String) : Table UInt64 Unit :=
  r.hashes.part _ _ (hashPart key)

/-- The registers of a key. -/
def registersOf (r : Relational) (key : String) : Table Nat Nat :=
  r.registers.part _ _ (registerPart key)

/-- All rows of a key. -/
def rowsAt (r : Relational) (key : String) : Rows where
  expiry := r.keys.find? key
  tally := r.tallies.find? key
  rank i := r.registers.find? ⟨key, i⟩
  kept := (r.hashesOf key).keys.toFinset
  score m := r.scores.find? ⟨key, m⟩

@[simp] theorem expiry_rowsAt (r : Relational) (key : String) :
    (r.rowsAt key).expiry = r.keys.find? key := rfl

@[simp] theorem tally_rowsAt (r : Relational) (key : String) :
    (r.rowsAt key).tally = r.tallies.find? key := rfl

@[simp] theorem rank_rowsAt (r : Relational) (key : String) (i : Nat) :
    (r.rowsAt key).rank i = r.registers.find? ⟨key, i⟩ := rfl

@[simp] theorem score_rowsAt (r : Relational) (key m : String) :
    (r.rowsAt key).score m = r.scores.find? ⟨key, m⟩ := rfl

theorem mem_kept {r : Relational} {key : String} {h : UInt64} :
    h ∈ (r.rowsAt key).kept ↔ r.hashes.find? ⟨key, h⟩ ≠ none := by
  unfold rowsAt hashesOf
  rw [List.mem_toFinset, Table.mem_keys_iff, Table.find?_part]

theorem hashCount_eq (r : Relational) (key : String) :
    r.hashCount key = (r.rowsAt key).kept.card := by
  have hcard : (r.rowsAt key).kept.card = (r.hashesOf key).keys.length :=
    List.toFinset_card_of_nodup (r.hashesOf key).nodup
  rw [hcard]
  unfold hashCount hashesOf Table.keys Table.part
  rw [List.length_map, List.length_filterMap_eq_countP]
  refine List.countP_congr fun row _ => ?_
  by_cases hk : row.1.key = key <;> simp [hk]

/-- The members of a key with a score in a range are those of a table with the same answers. -/
theorem countP_scores {r : Relational} {key : String} {t : Table String Int}
    (h : ∀ m, (r.rowsAt key).score m = t.find? m) (low high : Int) :
    r.scores.rows.countP (fun row => row.1.key == key && low ≤ row.2 && row.2 ≤ high) =
      t.rows.countP fun row => low ≤ row.2 && row.2 ≤ high := by
  have hperm : (r.scoresOf key).rows.Perm t.rows := by
    refine Table.rows_perm fun m => ?_
    unfold scoresOf
    rw [Table.find?_part, ← h m]
    rfl
  rw [← hperm.countP_eq]
  unfold scoresOf Table.part
  rw [List.countP_filterMap]
  refine List.countP_congr fun row _ => ?_
  by_cases hk : row.1.key = key <;> simp [hk]

theorem isBare_iff {r : Relational} {key : String} :
    r.isBare key = true ↔ (r.rowsAt key).Bare := by
  have hscores : (r.scores.rows.any fun row => row.1.key == key) = false ↔
      ∀ m, r.scores.find? ⟨key, m⟩ = none := by
    simp only [List.any_eq_false, beq_iff_eq, Table.find?_eq_none_iff, Table.keys, List.mem_map,
      not_exists, not_and]
    refine ⟨fun h m row hrow he => h row hrow (by rw [he]), fun h row hrow he => ?_⟩
    exact h row.1.member row hrow (by rw [← he])
  have hregisters : (r.registers.rows.any fun row => row.1.key == key) = false ↔
      ∀ i, r.registers.find? ⟨key, i⟩ = none := by
    simp only [List.any_eq_false, beq_iff_eq, Table.find?_eq_none_iff, Table.keys, List.mem_map,
      not_exists, not_and]
    refine ⟨fun h m row hrow he => h row hrow (by rw [he]), fun h row hrow he => ?_⟩
    exact h row.1.index row hrow (by rw [← he])
  have htally : r.tallies.contains key = false ↔ r.tallies.find? key = none := by
    rw [Table.find?_eq_none_iff, ← Bool.not_eq_true, Table.contains_iff]
  unfold isBare Rows.Bare rowsAt
  rw [Bool.and_eq_true, Bool.and_eq_true, Bool.not_eq_true', Bool.not_eq_true',
    Bool.not_eq_true', hscores, hregisters, htally]
  exact and_assoc

/-! ### The registers in order -/

theorem readRank_of_le {rank : Nat} (h : rank ≤ 51) : readRank rank = rank :=
  Nat.min_eq_left (h.trans (by decide))

/-- The row of a register, if there is one, is what its place is filled with. -/
theorem getElem?_fill {rows : List (RegisterKey × Nat)}
    (hn : (rows.map fun row => row.1.index).Nodup) (v : Array Nat) {i : Nat} (hi : i < v.size) :
    (rows.foldl fill v)[i]? =
      (((rows.map fun row => (row.1.index, row.2)).lookup i).map readRank).or v[i]? := by
  induction rows generalizing v with
  | nil => rfl
  | cons row rows ih =>
    rw [List.map_cons, List.nodup_cons] at hn
    rw [List.foldl_cons, ih hn.2 _ (by rwa [fill, Array.size_setIfInBounds]), List.map_cons,
      List.lookup_cons, fill]
    by_cases he : i = row.1.index
    · -- No later row writes this register again.
      have hnone : (rows.map fun row => (row.1.index, row.2)).lookup i = none := by
        refine List.lookup_eq_none_iff.2 fun p hp => bne_iff_ne.2 fun hip => hn.1 ?_
        obtain ⟨row', hrow', rfl⟩ := List.mem_map.1 hp
        rw [← he, hip]
        exact List.mem_map_of_mem hrow'
      rw [hnone, ← he, beq_self_eq_true, Array.getElem?_setIfInBounds_self_of_lt hi]
      rfl
    · rw [beq_eq_false_iff_ne.2 he, Array.getElem?_setIfInBounds_ne (Ne.symm he)]

theorem size_fill (rows : List (RegisterKey × Nat)) (v : Array Nat) :
    (rows.foldl fill v).size = v.size := by
  induction rows generalizing v with
  | nil => rfl
  | cons row rows ih => rw [List.foldl_cons, ih, fill, Array.size_setIfInBounds]

theorem ranks_eq (r : Relational) (key : String) :
    r.ranks key = (List.range Sketch.registerCount).map fun i =>
      readRank (((r.rowsAt key).rank i).getD 0) := by
  have hrows : (r.registers.rows.filter fun row => row.1.key == key).map
      (fun row => (row.1.index, row.2)) = (r.registersOf key).rows := by
    unfold registersOf Table.part
    rw [← List.filterMap_eq_map, List.filterMap_filter]
    refine List.filterMap_congr fun row _ => ?_
    by_cases hk : row.1.key = key <;> simp [hk]
  have hn : ((r.registers.rows.filter fun row => row.1.key == key).map
      fun row => row.1.index).Nodup := by
    have := (r.registersOf key).nodup
    rw [← hrows, List.map_map] at this
    exact this
  refine List.ext_getElem? fun i => ?_
  unfold ranks
  by_cases hi : i < Sketch.registerCount
  · have hlook : (r.registersOf key).rows.lookup i = (r.rowsAt key).rank i :=
      Table.find?_part r.registers (registerPart key) i
    rw [Array.getElem?_toList, getElem?_fill hn _ (by rwa [Array.size_replicate]), hrows, hlook,
      Array.getElem?_replicate, if_pos hi, List.getElem?_map, List.getElem?_range hi,
      Option.map_some]
    cases (r.rowsAt key).rank i <;> rfl
  · rw [List.getElem?_eq_none, List.getElem?_eq_none]
    · rw [List.length_map, List.length_range]
      omega
    · rw [Array.length_toList, size_fill, Array.size_replicate]
      omega

/-! ### What an operation does to the relations -/

section Touch
variable (r : Relational) (k : String)

@[simp] theorem tallies_touch : (r.touch k).tallies = r.tallies := by
  unfold touch; split <;> rfl

@[simp] theorem registers_touch : (r.touch k).registers = r.registers := by
  unfold touch; split <;> rfl

@[simp] theorem hashes_touch : (r.touch k).hashes = r.hashes := by
  unfold touch; split <;> rfl

@[simp] theorem scores_touch : (r.touch k).scores = r.scores := by
  unfold touch; split <;> rfl

theorem find?_keys_touch (key : String) : (r.touch k).keys.find? key =
    if key = k then some ((r.keys.find? k).getD none) else r.keys.find? key := by
  unfold touch
  by_cases hc : r.keys.contains k = true
  · rw [if_pos hc]
    obtain ⟨x, hx⟩ := Option.ne_none_iff_exists'.1 (Table.mem_keys_iff.1 (Table.contains_iff.1 hc))
    split_ifs with h
    · rw [h, hx]
      rfl
    · rfl
  · rw [if_neg hc, Table.find?_insert]
    rw [Table.contains_iff, Table.mem_keys_iff, ne_eq, not_not] at hc
    rw [hc]
    rfl

end Touch

section KeepHash
variable (r : Relational) (k : String) (h : UInt64)

@[simp] theorem keys_keepHash : (r.keepHash k h).keys = r.keys := by
  unfold keepHash; split <;> rfl

@[simp] theorem tallies_keepHash : (r.keepHash k h).tallies = r.tallies := by
  unfold keepHash; split <;> rfl

@[simp] theorem registers_keepHash : (r.keepHash k h).registers = r.registers := by
  unfold keepHash; split <;> rfl

@[simp] theorem scores_keepHash : (r.keepHash k h).scores = r.scores := by
  unfold keepHash; split <;> rfl

theorem find?_hashes_keepHash (key : String) (x : UInt64) :
    (r.keepHash k h).hashes.find? ⟨key, x⟩ =
      if (r.rowsAt k).kept.card ≤ Sketch.exactLimit ∧ key = k ∧ x = h then some ()
      else r.hashes.find? ⟨key, x⟩ := by
  unfold keepHash
  rw [hashCount_eq]
  by_cases hcard : (r.rowsAt k).kept.card ≤ Sketch.exactLimit
  · by_cases hc : r.hashes.contains ⟨k, h⟩ = false
    · rw [if_pos ⟨hcard, hc⟩, Table.find?_insert]
      simp only [hcard, true_and, HashKey.mk.injEq]
    · rw [if_neg fun hh => hc hh.2]
      rw [Bool.not_eq_false, Table.contains_iff, Table.mem_keys_iff] at hc
      obtain ⟨u, hu⟩ := Option.ne_none_iff_exists'.1 hc
      split_ifs with hx
      · obtain ⟨-, rfl, rfl⟩ := hx
        exact hu
      · rfl
  · rw [if_neg fun hh => hcard hh.1, if_neg fun hh => hcard hh.1]

end KeepHash

section Raise
variable (r : Relational) (k : String) (i rank : Nat)

@[simp] theorem keys_raise : (r.raise k i rank).keys = r.keys := rfl

@[simp] theorem tallies_raise : (r.raise k i rank).tallies = r.tallies := rfl

@[simp] theorem hashes_raise : (r.raise k i rank).hashes = r.hashes := rfl

@[simp] theorem scores_raise : (r.raise k i rank).scores = r.scores := rfl

theorem find?_registers_raise (key : String) (j : Nat) :
    (r.raise k i rank).registers.find? ⟨key, j⟩ =
      if key = k ∧ j = i then some (Rows.raised (r.registers.find? ⟨k, i⟩) rank)
      else r.registers.find? ⟨key, j⟩ := by
  have hraise : (r.raise k i rank).registers =
      r.registers.insert ⟨k, i⟩ (Rows.raised (r.registers.find? ⟨k, i⟩) rank) := by
    unfold raise Rows.raised
    cases r.registers.find? ⟨k, i⟩ <;> rfl
  rw [hraise, Table.find?_insert]
  simp only [RegisterKey.mk.injEq]

end Raise

/-- The scores that a trim leaves. -/
theorem find?_scores_trim (r : Relational) (k : String) (bound : Int) (key m : String) :
    (r.scores.filter fun k' s => !(s ≤ bound && k'.key == k)).find? ⟨key, m⟩ =
      if key = k then (r.scores.find? ⟨key, m⟩).filter (bound < ·)
      else r.scores.find? ⟨key, m⟩ := by
  rw [Table.find?_filter]
  split_ifs with hk
  · congr 1
    funext s
    subst hk
    rw [beq_self_eq_true, Bool.and_true, ← decide_not, decide_eq_decide]
    exact Int.not_le
  · cases r.scores.find? ⟨key, m⟩ <;> simp [hk]

/-- Two stores have the same rows of a key if their relations answer alike about it. -/
theorem rowsAt_congr {r r' : Relational} {key : String}
    (hkeys : r.keys.find? key = r'.keys.find? key)
    (htallies : r.tallies.find? key = r'.tallies.find? key)
    (hregisters : ∀ i, r.registers.find? ⟨key, i⟩ = r'.registers.find? ⟨key, i⟩)
    (hhashes : ∀ h, r.hashes.find? ⟨key, h⟩ = r'.hashes.find? ⟨key, h⟩)
    (hscores : ∀ m, r.scores.find? ⟨key, m⟩ = r'.scores.find? ⟨key, m⟩) :
    r.rowsAt key = r'.rowsAt key := by
  refine Rows.ext hkeys htallies (funext hregisters) (Finset.ext fun h => ?_) (funext hscores)
  rw [mem_kept, mem_kept, hhashes]

theorem rowsAt_deleteWhere (r : Relational) (gone : String → Bool) (key : String) :
    (r.deleteWhere gone).rowsAt key = if gone key then Rows.none else r.rowsAt key := by
  by_cases hg : gone key = true
  · rw [if_pos hg]
    refine Rows.ext ?_ ?_ (funext fun i => ?_) (Finset.ext fun h => ?_) (funext fun m => ?_)
    · simp [deleteWhere, Table.find?_filter, hg, Rows.none]
    · simp [deleteWhere, Table.find?_filter, hg, Rows.none]
    · simp [deleteWhere, Table.find?_filter, hg, Rows.none]
    · simp [mem_kept, deleteWhere, Table.find?_filter, hg, Rows.none]
    · simp [deleteWhere, Table.find?_filter, hg, Rows.none]
  · rw [if_neg hg]
    rw [Bool.not_eq_true] at hg
    have hkeep : ∀ {α : Type} (o : Option α), (o.filter fun _ => !gone key) = o := by
      intro α o
      cases o <;> simp [hg]
    refine rowsAt_congr ?_ ?_ ?_ ?_ ?_ <;> simp only [deleteWhere, Table.find?_filter, hkeep]
    · exact fun _ => trivial
    · exact fun _ => trivial
    · exact fun _ => trivial

/-- **An operation** leaves the rows of all other keys. -/
theorem rowsAt_apply_of_ne (r : Relational) (now : Int) (op : Op) {key : String}
    (hkey : key ≠ op.key) : (r.apply now op).rowsAt key = r.rowsAt key := by
  cases op with
  | add k delta =>
    have hk : key ≠ k := hkey
    refine rowsAt_congr ?_ ?_ ?_ ?_ ?_ <;>
      simp [apply, find?_keys_touch, Table.find?_insert, hk]
  | observe k member =>
    have hk : key ≠ k := hkey
    refine rowsAt_congr ?_ ?_ ?_ ?_ ?_ <;>
      simp [apply, find?_keys_touch, find?_hashes_keepHash, find?_registers_raise, hk]
  | place k member score =>
    have hk : key ≠ k := hkey
    refine rowsAt_congr ?_ ?_ ?_ ?_ ?_ <;>
      simp [apply, find?_keys_touch, Table.find?_insert, hk]
  | trim k bound =>
    have hk : key ≠ k := hkey
    simp only [apply]
    split
    · refine rowsAt_congr ?_ rfl (fun _ => rfl) (fun _ => rfl) fun m => ?_
      · rw [Table.find?_erase, if_neg hk]
      · rw [find?_scores_trim, if_neg hk]
    · refine rowsAt_congr rfl rfl (fun _ => rfl) (fun _ => rfl) fun m => ?_
      rw [find?_scores_trim, if_neg hk]
  | expire k instant =>
    have hk : key ≠ k := hkey
    simp only [apply]
    split
    · rw [rowsAt_deleteWhere, if_neg (by simpa using hk)]
    · refine rowsAt_congr ?_ rfl (fun _ => rfl) (fun _ => rfl) fun _ => rfl
      rw [Table.find?_modify, if_neg hk]

/-- **An operation** changes the rows of its key by what they are alone. -/
theorem rowsAt_apply (r : Relational) (now : Int) (op : Op) :
    (r.apply now op).rowsAt op.key = (r.rowsAt op.key).apply now op := by
  cases op with
  | add k delta =>
    refine Rows.ext ?_ ?_ (funext fun i => ?_) (Finset.ext fun h => ?_) (funext fun m => ?_)
    · simp [apply, Rows.apply, Rows.touched, Op.key, find?_keys_touch]
    · simp [apply, Rows.apply, Op.key, Table.find?_insert]
    · simp [apply, Rows.apply, Rows.touched, Op.key]
    · simp [mem_kept, apply, Rows.apply, Rows.touched, Op.key]
    · simp [apply, Rows.apply, Rows.touched, Op.key]
  | observe k member =>
    refine Rows.ext ?_ ?_ (funext fun i => ?_) (Finset.ext fun h => ?_) (funext fun m => ?_)
    · simp [apply, Rows.apply, Rows.touched, Op.key, find?_keys_touch]
    · simp [apply, Rows.apply, Rows.touched, Op.key]
    · by_cases hi : i = Sketch.indexOf (Sketch.hashOf member) <;>
        simp [apply, Rows.apply, Op.key, find?_registers_raise, hi]
    · have htouch : ((r.touch k).rowsAt k).kept = (r.rowsAt k).kept :=
        Finset.ext fun x => by rw [mem_kept, mem_kept, hashes_touch]
      rw [mem_kept, apply, hashes_raise]
      simp only [Op.key, find?_hashes_keepHash, htouch, hashes_touch, Rows.apply, true_and]
      by_cases hcard : (r.rowsAt k).kept.card ≤ Sketch.exactLimit
      · by_cases hh : h = Sketch.hashOf member <;> simp [hcard, hh, mem_kept]
      · simp [hcard, mem_kept]
    · simp [apply, Rows.apply, Rows.touched, Op.key]
  | place k member score =>
    refine Rows.ext ?_ ?_ (funext fun i => ?_) (Finset.ext fun h => ?_) (funext fun m => ?_)
    · simp [apply, Rows.apply, Rows.touched, Op.key, find?_keys_touch]
    · simp [apply, Rows.apply, Rows.touched, Op.key]
    · simp [apply, Rows.apply, Rows.touched, Op.key]
    · simp [mem_kept, apply, Rows.apply, Rows.touched, Op.key]
    · simp [apply, Rows.apply, Op.key, Table.find?_insert]
  | trim k bound =>
    let trimmed : Relational :=
      ⟨r.keys, r.tallies, r.registers, r.hashes,
        r.scores.filter fun k' s => !(s ≤ bound && k'.key == k)⟩
    have hrows : trimmed.rowsAt k = (r.rowsAt k).trimmed bound := by
      refine Rows.ext rfl rfl rfl rfl (funext fun m => ?_)
      exact (find?_scores_trim r k bound k m).trans (if_pos rfl)
    have hstore : r.apply now (.trim k bound) =
        if trimmed.isBare k then { trimmed with keys := trimmed.keys.erase k } else trimmed := rfl
    change (r.apply now (.trim k bound)).rowsAt k = (r.rowsAt k).apply now (.trim k bound)
    by_cases hb : ((r.rowsAt k).trimmed bound).Bare
    · rw [Rows.apply_trim_of_bare hb, hstore, if_pos (isBare_iff.2 (hrows ▸ hb))]
      have hscore := congrArg Rows.score hrows
      refine Rows.ext ?_ rfl rfl rfl hscore
      rw [expiry_rowsAt, Table.find?_erase, if_pos rfl]
    · rw [Rows.apply_trim_of_not_bare hb, hstore, if_neg fun h => hb (hrows ▸ isBare_iff.1 h)]
      exact hrows
  | expire k instant =>
    simp only [apply, Rows.apply, Op.key]
    split
    · rw [rowsAt_deleteWhere, if_pos (beq_self_eq_true k)]
    · refine Rows.ext ?_ rfl rfl rfl rfl
      rw [expiry_rowsAt, Table.find?_modify, if_pos rfl]
      rfl

/-- **The purge** leaves no rows of a key that has expired, and those of all others. -/
theorem rowsAt_purge (r : Relational) (now : Int) (key : String) :
    (r.purge now).rowsAt key = if r.hasExpired now key then Rows.none else r.rowsAt key := by
  have hmem : ((r.keys.rows.filter fun row => row.2.any (· ≤ now)).map Prod.fst).contains key =
      r.hasExpired now key := by
    rw [Bool.eq_iff_iff, List.contains_iff_mem, List.mem_map]
    unfold hasExpired
    constructor
    · rintro ⟨⟨k, x⟩, hrow, rfl⟩
      obtain ⟨hrow, hx⟩ := List.mem_filter.1 hrow
      rw [Table.find?_eq_some_iff.2 hrow]
      exact hx
    · intro h
      cases hf : r.keys.find? key with
      | none => rw [hf] at h; cases h
      | some x =>
        rw [hf] at h
        exact ⟨(key, x), List.mem_filter.2 ⟨Table.find?_eq_some_iff.1 hf, h⟩, rfl⟩
  unfold purge
  simp only []
  split
  · next hempty =>
    rw [List.isEmpty_iff.1 hempty, List.contains_nil] at hmem
    rw [← hmem, if_neg Bool.false_ne_true]
  · rw [rowsAt_deleteWhere, hmem]

/-- The rows of a key after operations in turn are those after the operations on the key. -/
theorem rowsAt_foldl_apply (r : Relational) (now : Int) (ops : List Op) (key : String) :
    (ops.foldl (fun r op => r.apply now op) r).rowsAt key =
      (ops.filter fun op => op.key = key).foldl (Rows.apply now) (r.rowsAt key) := by
  induction ops generalizing r with
  | nil => rfl
  | cons op ops ih =>
    rw [List.foldl_cons, ih, List.filter_cons]
    by_cases hkey : op.key = key
    · subst hkey
      rw [rowsAt_apply, if_pos (decide_eq_true rfl), List.foldl_cons]
    · rw [rowsAt_apply_of_ne r now op (Ne.symm hkey), if_neg (by simpa using hkey)]

/-- **A pipeline** purges the rows of a key and does the operations on it. -/
theorem rowsAt_exec {p : Pipeline} (h : p.ops ≠ []) (r : Relational) (key : String) :
    (exec p r).2.rowsAt key =
      (p.ops.filter fun op => op.key = key).foldl (Rows.apply p.now)
        ((r.purge p.now).rowsAt key) := by
  rw [exec, if_neg (mt List.isEmpty_iff.1 h)]
  exact rowsAt_foldl_apply (r.purge p.now) p.now p.ops key

end Relational

end PaperIndex.Counter
