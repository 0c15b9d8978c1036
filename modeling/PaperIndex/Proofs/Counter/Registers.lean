import PaperIndex.Proofs.Counter.Rows
import PaperIndex.Proofs.Counter.Session
import PaperIndex.Proofs.Sketch.Run

/-! # Registers stay in range

The register of a hash is one of 16384, and its rank lies between 1 and 51. A register of a sketch
holds the greatest rank of its hashes, or zero; a row of the relational counter store is written
with the register and the rank of a hash, or keeps a greater rank that was written before
(`Rows.InRange.apply`). So in every state that calls of the store lead to (`RegistersInRange.run`)
registers are read as they were written: no row is beyond the last register and left out, and no
rank is beyond a byte and cut down to one (`Relational.Faithful`).

`registers_in_range` says all of this, and that the estimate shifts by these ranks without a wrap,
whether they come from a sketch or from rows. -/

namespace PaperIndex.Counter

/-- **The registers of a key are in range**: each row is that of a register, and holds a rank that
hashes have. -/
def Rows.InRange (rows : Rows) : Prop :=
  ∀ i rank, rows.rank i = some rank → i < Sketch.registerCount ∧ 1 ≤ rank ∧ rank ≤ 51

/-! ### One operation -/

theorem Rows.inRange_none : Rows.none.InRange := fun _ _ h => nomatch h

/-- A raised register holds the new rank, or an old one that is greater. -/
theorem Rows.raised_eq (old : Option Nat) (rank : Nat) :
    Rows.raised old rank = rank ∨ old = some (Rows.raised old rank) := by
  cases old with
  | none => exact .inl rfl
  | some r =>
    rcases Nat.le_total r rank with h | h
    · exact .inl (Nat.max_eq_right h)
    · exact .inr (congrArg some (Nat.max_eq_left h).symm)

/-- **An operation** keeps the registers of its key in range. -/
theorem Rows.InRange.apply {rows : Rows} (h : rows.InRange) (now : Int) (op : Op) :
    (rows.apply now op).InRange := by
  cases op with
  | add key delta => exact h
  | observe key member =>
    intro i rank hrank
    replace hrank : (if i = Sketch.indexOf (Sketch.hashOf member) then
      some (Rows.raised (rows.rank i) (Sketch.rankOf (Sketch.hashOf member)))
      else rows.rank i) = some rank := hrank
    split_ifs at hrank with hi
    · obtain rfl := Option.some.inj hrank
      rcases Rows.raised_eq (rows.rank i) (Sketch.rankOf (Sketch.hashOf member)) with hnew | hold
      · rw [hnew, hi]
        exact ⟨Sketch.indexOf_lt _, Sketch.one_le_rankOf _, Sketch.rankOf_le _⟩
      · exact h i _ hold
    · exact h i rank hrank
  | place key member score => exact h
  | trim key bound =>
    by_cases hb : (rows.trimmed bound).Bare
    · rw [Rows.apply_trim_of_bare hb]
      exact h
    · rw [Rows.apply_trim_of_not_bare hb]
      exact h
  | expire key instant =>
    simp only [Rows.apply]
    split_ifs
    · exact Rows.inRange_none
    · exact h

theorem Rows.InRange.foldl {rows : Rows} (h : rows.InRange) (now : Int) (ops : List Op) :
    (ops.foldl (Rows.apply now) rows).InRange := by
  induction ops generalizing rows with
  | nil => exact h
  | cons op ops ih => exact ih (h.apply now op)

/-! ### Sessions -/

namespace Relational

/-- The registers of all keys are in range. -/
def RegistersInRange (r : Relational) : Prop := ∀ key, (r.rowsAt key).InRange

theorem registersInRange_empty : RegistersInRange .empty := fun _ => Rows.inRange_none

/-- **A pipeline** keeps the registers in range. -/
theorem RegistersInRange.exec {r : Relational} (h : r.RegistersInRange) (p : Pipeline) :
    (Relational.exec p r).2.RegistersInRange := by
  intro key
  by_cases hops : p.ops = []
  · obtain ⟨now, ops⟩ := p
    obtain rfl : ops = [] := hops
    exact h key
  · have hpurge : ((r.purge p.now).rowsAt key).InRange := by
      rw [rowsAt_purge]
      split_ifs
      · exact Rows.inRange_none
      · exact h key
    rw [rowsAt_exec hops]
    exact hpurge.foldl p.now _

/-- **A session** keeps the registers in range. -/
theorem RegistersInRange.run {r : Relational} (h : r.RegistersInRange) (session : List Request) :
    (store.run session r).RegistersInRange := by
  induction session generalizing r with
  | nil => exact h
  | cons q session ih =>
    cases q with
    | exec p => exact ih (h.exec p)
    | read qs now => exact ih h
    | scan lead now => exact ih h

/-! ### Reading -/

/-- **The registers of a key are read as they are stored.** -/
structure Faithful (r : Relational) (key : String) : Prop where
  /-- Every row is that of a register and holds a rank that hashes have. -/
  inRange : ∀ i rank, (⟨key, i⟩, rank) ∈ r.registers.rows →
    i < Sketch.registerCount ∧ 1 ≤ rank ∧ rank ≤ 51
  /-- No row is left out, and no rank is cut down. -/
  read : ∀ i rank, (⟨key, i⟩, rank) ∈ r.registers.rows → (r.ranks key)[i]? = some rank
  /-- A register without a row is read as zero. -/
  rest : ∀ i < Sketch.registerCount, (∀ rank, (⟨key, i⟩, rank) ∉ r.registers.rows) →
    (r.ranks key)[i]? = some 0
  length : (r.ranks key).length = Sketch.registerCount
  /-- The estimate shifts by the ranks without a wrap. -/
  fit : Sketch.Fit (r.ranks key)

theorem getElem?_ranks (r : Relational) (key : String) {i : Nat} (hi : i < Sketch.registerCount) :
    (r.ranks key)[i]? = some (readRank (((r.rowsAt key).rank i).getD 0)) := by
  rw [ranks_eq, List.getElem?_map, List.getElem?_range hi, Option.map_some]

theorem mem_registers_iff {r : Relational} {key : String} {i rank : Nat} :
    (⟨key, i⟩, rank) ∈ r.registers.rows ↔ (r.rowsAt key).rank i = some rank :=
  Table.find?_eq_some_iff.symm

theorem faithful_of_inRange {r : Relational} {key : String} (h : (r.rowsAt key).InRange) :
    r.Faithful key where
  inRange i rank hrow := h i rank (mem_registers_iff.1 hrow)
  read i rank hrow := by
    have hrank := mem_registers_iff.1 hrow
    obtain ⟨hi, -, hle⟩ := h i rank hrank
    rw [getElem?_ranks r key hi, hrank, Option.getD_some, readRank_of_le hle]
  rest i hi hnone := by
    have hrank : (r.rowsAt key).rank i = none :=
      Option.eq_none_iff_forall_ne_some.2 fun rank hrank => hnone rank (mem_registers_iff.2 hrank)
    rw [getElem?_ranks r key hi, hrank]
    rfl
  length := by rw [ranks_eq, List.length_map, List.length_range]
  fit := by
    refine Sketch.fit_of_le fun rank hmem => ?_
    rw [ranks_eq, List.mem_map] at hmem
    obtain ⟨i, -, rfl⟩ := hmem
    refine (Nat.min_le_left _ _).trans ?_
    cases hrank : (r.rowsAt key).rank i with
    | none => exact Nat.zero_le _
    | some rank => exact (h i rank hrank).2.2

end Relational

/-! ### Sketches and rows -/

/-- **Registers stay in range.** The register of a hash is its quotient by `2 ^ 50`, one of 16384,
and its rank is 51 less the length of the remainder in binary, between 1 and 51. So the ranks in
every sketch that adding and merging lead to fit the estimate, and the rows that a session of the
relational store leads to are in range and are read as they are stored. -/
theorem registers_in_range :
    (∀ h : UInt64, Sketch.indexOf h = h.toNat / 2 ^ 50 ∧
      Sketch.indexOf h < 16384 ∧ Sketch.rankOf h = 51 - (h.toNat % 2 ^ 50).size ∧
      1 ≤ Sketch.rankOf h ∧ Sketch.rankOf h ≤ 51) ∧
    (∀ (ι : Type) [DecidableEq ι] (steps : List (Sketch.Step ι)) (i : ι),
      Sketch.Fit (Sketch.run steps i).registers.toList) ∧
    ∀ (session : List Request) (key : String),
      (Relational.store.run session .empty).Faithful key := by
  refine ⟨fun h => ?_, fun ι _ steps i => ?_, fun session key => ?_⟩
  · have hrank := Sketch.rankOf_add_size h
    exact ⟨Sketch.indexOf_eq h, Sketch.indexOf_lt h, by omega, Sketch.one_le_rankOf h,
      Sketch.rankOf_le h⟩
  · rw [Sketch.run_eq_ofMembers]
    exact Sketch.fit_ofSet _
  · have hreached := Relational.registersInRange_empty.run session
    exact Relational.faithful_of_inRange (hreached key)

end PaperIndex.Counter
