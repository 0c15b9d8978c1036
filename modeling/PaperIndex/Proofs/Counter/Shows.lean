import PaperIndex.Proofs.Counter.Rows
import PaperIndex.Proofs.Counter.Slots
import PaperIndex.Proofs.Sketch.Canonical

/-! # One key in both stores

`Shows rows slot` says that the rows of a key in the relational store show what a slot of the store
in memory holds: there are rows of the kind of its value only, and no rows if the slot is free. A
sketch is known in memory by the set of its hashes. The relational store keeps the set itself up to
1024 hashes, and of a greater set some 1025 hashes (`Keeps`), which ones depends on their order.

Operations that succeed in memory keep the two together (`shows_apply`, `shows_applyAll`). -/

namespace PaperIndex.Counter

/-- The hashes kept of a set: the whole set while it is small, and then one more than that. -/
def Keeps (S kept : Finset UInt64) : Prop :=
  (S.card ≤ Sketch.exactLimit → kept = S) ∧
    (Sketch.exactLimit < S.card → kept.card = Sketch.exactLimit + 1)

namespace Rows

/-- The rows of a tally. -/
def ofTally (cell : Cell) (x : Option Int) : Rows :=
  { none with expiry := some x, tally := some cell }

/-- The row of a register of the sketch of a set, if it has one. -/
def rankRow (S : Finset UInt64) (i : Nat) : Option Nat :=
  if Sketch.rankAt S i = 0 then .none else some (Sketch.rankAt S i)

/-- The rows of the sketch of a set. -/
def ofSketch (S kept : Finset UInt64) (x : Option Int) : Rows :=
  { none with expiry := some x, rank := rankRow S, kept := kept }

/-- The rows of a set of scored members. -/
def ofScores (t : Table String Int) (x : Option Int) : Rows :=
  { none with expiry := some x, score := t.find? }

end Rows

/-- **The rows of a key show a slot.** -/
inductive Shows : Rows → Option Entry → Prop
  | free : Shows Rows.none none
  | tally (n : Int) (x : Option Int) : Shows (.ofTally (.integer n) x) (some ⟨.tally n, x⟩)
  | sketch (S kept : Finset UInt64) (x : Option Int) (h : Keeps S kept) :
    Shows (.ofSketch S kept x) (some ⟨.sketch (.ofSet S), x⟩)
  | scores (t : Table String Int) (x : Option Int) (h : t.rows ≠ []) :
    Shows (.ofScores t x) (some ⟨.scores t, x⟩)

theorem expiry_of_shows {rows : Rows} {slot : Option Entry} (h : Shows rows slot) :
    rows.expiry = slot.map Entry.expiry := by
  cases h <;> rfl

/-! ### Adding a hash -/

theorem keeps_empty : Keeps ∅ ∅ := by
  refine ⟨fun _ => rfl, fun h => ?_⟩
  rw [Finset.card_empty] at h
  exact absurd h (Nat.not_lt_zero _)

theorem card_kept_le_iff {S kept : Finset UInt64} (hk : Keeps S kept) :
    kept.card ≤ Sketch.exactLimit ↔ S.card ≤ Sketch.exactLimit := by
  by_cases hS : S.card ≤ Sketch.exactLimit
  · rw [hk.1 hS]
  · have := hk.2 (by omega)
    omega

theorem keeps_insert {S kept : Finset UInt64} (hk : Keeps S kept) (h : UInt64) :
    Keeps (insert h S) (if kept.card ≤ Sketch.exactLimit then insert h kept else kept) := by
  have hle : S.card ≤ (insert h S).card := Finset.card_le_card (Finset.subset_insert h S)
  have hsucc : (insert h S).card ≤ S.card + 1 := Finset.card_insert_le h S
  by_cases hS : S.card ≤ Sketch.exactLimit
  · rw [if_pos ((card_kept_le_iff hk).2 hS), hk.1 hS]
    exact ⟨fun _ => rfl, fun _ => by omega⟩
  · rw [if_neg fun hle => hS ((card_kept_le_iff hk).1 hle)]
    exact ⟨fun _ => by omega, fun _ => hk.2 (by omega)⟩

theorem rankRow_empty : Rows.rankRow ∅ = fun _ => none := by
  funext i
  rw [Rows.rankRow, Sketch.rankAt_empty, if_pos rfl]

theorem getD_rankRow (S : Finset UInt64) (i : Nat) :
    (Rows.rankRow S i).getD 0 = Sketch.rankAt S i := by
  unfold Rows.rankRow
  split_ifs with h
  · exact h.symm
  · rfl

theorem rankRow_insert (S : Finset UInt64) (h : UInt64) :
    Rows.rankRow (insert h S) = fun i =>
      if i = Sketch.indexOf h then some (Rows.raised (Rows.rankRow S i) (Sketch.rankOf h))
      else Rows.rankRow S i := by
  funext i
  by_cases hi : i = Sketch.indexOf h
  · have hpos := Sketch.one_le_rankOf h
    rw [if_pos hi, Rows.rankRow, Sketch.rankAt_insert, if_pos hi.symm, if_neg (by omega)]
    unfold Rows.rankRow Rows.raised
    split_ifs with h0
    · rw [h0, Nat.zero_max]
      rfl
    · rfl
  · rw [if_neg hi, Rows.rankRow, Sketch.rankAt_insert, if_neg (Ne.symm hi), Rows.rankRow]

/-- The sketch of the empty set has no rows but the key's own. -/
theorem ofSketch_empty (x : Option Int) :
    Rows.ofSketch ∅ ∅ x = { Rows.none with expiry := some x } := by
  unfold Rows.ofSketch
  rw [rankRow_empty]
  rfl

theorem add_ofSet (S : Finset UInt64) (member : String) :
    (Sketch.ofSet S).add member = .ofSet (insert (Sketch.hashOf member) S) :=
  Sketch.addHash_ofSet S _

theorem apply_observe_ofSketch (now : Int) (key member : String) (S kept : Finset UInt64)
    (x : Option Int) :
    (Rows.ofSketch S kept x).apply now (.observe key member) =
      .ofSketch (insert (Sketch.hashOf member) S)
        (if kept.card ≤ Sketch.exactLimit then insert (Sketch.hashOf member) kept else kept) x :=
  Rows.ext rfl rfl (rankRow_insert S _).symm rfl rfl

/-! ### Operations -/

/-- A trim leaves no score in the rows exactly when it empties the set in memory. -/
theorem shows_trim (now : Int) (key : String) (bound : Int) (t : Table String Int)
    (x : Option Int) :
    Shows ((Rows.ofScores t x).apply now (.trim key bound))
      (if (t.filter fun _ score => bound < score).rows.isEmpty then none
        else some ⟨.scores (t.filter fun _ score => bound < score), x⟩) := by
  generalize ht' : (t.filter fun _ score => bound < score) = t'
  have hrows : (Rows.ofScores t x).trimmed bound = .ofScores t' x := by
    refine Rows.ext rfl rfl rfl rfl (funext fun m => ?_)
    change (t.find? m).filter (bound < ·) = t'.find? m
    rw [← ht', Table.find?_filter]
  split_ifs with he
  · have hnone : t'.find? = fun _ => none := by
      funext m
      rw [Table.find?, List.isEmpty_iff.1 he]
      rfl
    have hbare : ((Rows.ofScores t x).trimmed bound).Bare := by
      rw [hrows]
      exact ⟨fun m => congrFun hnone m, rfl, fun _ => rfl⟩
    rw [Rows.apply_trim_of_bare hbare, hrows]
    simp only [Rows.ofScores, hnone]
    exact .free
  · have hne : t'.rows ≠ [] := mt List.isEmpty_iff.2 he
    have hbare : ¬((Rows.ofScores t x).trimmed bound).Bare := by
      rw [hrows]
      rintro ⟨hscores, -, -⟩
      obtain ⟨row, hrow⟩ := List.exists_mem_of_ne_nil _ hne
      rw [← Table.find?_eq_some_iff] at hrow
      exact Option.some_ne_none _ (hrow.symm.trans (hscores row.1))
    rw [Rows.apply_trim_of_not_bare hbare, hrows]
    exact .scores t' x hne

/-- **An operation** that succeeds in memory keeps the rows and the slot together. -/
theorem shows_apply {now : Int} {op : Op} {rows : Rows} {slot slot' : Option Entry}
    (h : op.apply now slot = .ok slot') (hs : Shows rows slot) :
    Shows (rows.apply now op) slot' := by
  cases op with
  | add key delta =>
    obtain ⟨n, hn, hfits, rfl⟩ := apply_add_eq_ok_iff.1 h
    cases hs with
    | free =>
      cases hn
      rw [Int.zero_add]
      exact .tally delta none
    | tally n' x =>
      cases hn
      have hrows : (Rows.ofTally (.integer n) x).apply now (.add key delta) =
          .ofTally ((Cell.integer n).plus delta) x := rfl
      rw [hrows, Cell.plus, if_pos hfits]
      exact .tally (n + delta) x
    | sketch S kept x hk => cases hn
    | scores t x ht => cases hn
  | observe key member =>
    obtain ⟨s, hv, rfl⟩ := apply_observe_eq_ok_iff.1 h
    cases hs with
    | free =>
      obtain rfl : Sketch.empty = s := Value.sketch.inj hv
      have hrows : Rows.none.apply now (.observe key member) =
          (Rows.ofSketch ∅ ∅ none).apply now (.observe key member) := by
        rw [ofSketch_empty]
        rfl
      rw [hrows, apply_observe_ofSketch, Sketch.empty_eq_ofSet, add_ofSet]
      exact .sketch _ _ none (keeps_insert keeps_empty _)
    | sketch S kept x hk =>
      obtain rfl : Sketch.ofSet S = s := Value.sketch.inj hv
      rw [apply_observe_ofSketch, add_ofSet]
      exact .sketch _ _ x (keeps_insert hk _)
    | tally n x => cases hv
    | scores t x ht => cases hv
  | place key member score =>
    obtain ⟨t', hv, rfl⟩ := apply_place_eq_ok_iff.1 h
    have hplace : ∀ (t : Table String Int) (x : Option Int),
        (Rows.ofScores t x).apply now (.place key member score) =
          .ofScores (t.insert member score) x := fun t x =>
      Rows.ext rfl rfl rfl rfl (funext fun m => (Table.find?_insert t member score m).symm)
    cases hs with
    | free =>
      cases hv
      have hrows : Rows.none.apply now (.place key member score) =
          (Rows.ofScores .empty none).apply now (.place key member score) := rfl
      rw [hrows, hplace]
      exact .scores _ none (List.cons_ne_nil _ _)
    | scores t x ht =>
      cases hv
      rw [hplace]
      exact .scores _ x (List.cons_ne_nil _ _)
    | tally n x => cases hv
    | sketch S kept x hk => cases hv
  | trim key bound =>
    rcases apply_trim_eq_ok_iff.1 h with ⟨rfl, rfl⟩ | ⟨t, x, rfl, rfl⟩
    · cases hs with
      | free =>
        rw [Rows.apply_trim_of_bare ⟨fun _ => rfl, rfl, fun _ => rfl⟩]
        exact .free
    · cases hs with
      | scores _ _ ht => exact shows_trim now key bound t x
  | expire key instant =>
    rw [apply_expire, Except.ok.injEq] at h
    subst h
    simp only [Rows.apply]
    split_ifs
    · exact .free
    · cases hs with
      | free => exact .free
      | tally n x => exact .tally n _
      | sketch S kept x hk => exact .sketch S kept _ hk
      | scores t x ht => exact .scores t _ ht

theorem shows_applyAll {now : Int} {ops : List Op} {rows : Rows} {slot slot' : Option Entry}
    (h : applyAll now ops slot = .ok slot') (hs : Shows rows slot) :
    Shows (ops.foldl (Rows.apply now) rows) slot' := by
  induction ops generalizing rows slot with
  | nil => cases h; exact hs
  | cons op ops ih =>
    rw [applyAll_cons] at h
    cases hop : op.apply now slot with
    | error e => rw [hop] at h; cases h
    | ok slot₁ =>
      rw [hop] at h
      exact ih h (shows_apply hop hs)

/-- **The purge** leaves the rows of a key what is live of its slot. -/
theorem shows_purged {r : Relational} {key : String} {slot : Option Entry}
    (hs : Shows (r.rowsAt key) slot) (now : Int) :
    Shows ((r.purge now).rowsAt key) (slot.filter fun e => isLive now e.expiry) := by
  have hexpiry := expiry_of_shows hs
  rw [Relational.expiry_rowsAt] at hexpiry
  rw [Relational.rowsAt_purge, Relational.hasExpired, hexpiry]
  cases slot with
  | none =>
    rw [if_neg (by simp)]
    exact hs
  | some e =>
    have hlive : isLive now e.expiry = !(e.expiry.any (· ≤ now)) := by
      cases e.expiry with
      | none => rfl
      | some x =>
        change decide (now < x) = !decide (x ≤ now)
        rw [← decide_not, decide_eq_decide, Int.not_le]
    rw [Option.filter_some, hlive]
    change Shows (if e.expiry.any (· ≤ now) = true then _ else _) _
    cases e.expiry.any (· ≤ now) with
    | false => exact hs
    | true => exact .free

end PaperIndex.Counter
