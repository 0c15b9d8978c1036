import PaperIndex.Proofs.Cache.Mirror
import PaperIndex.Proofs.Sorting

/-! # What a scan finds

A scan lists the first of the entries that were confirmed before a cutoff, by instant and then by
URI, up to a limit. `FirstBefore` says this of a list without sorting anything, and there is one
such list only (`FirstBefore.unique`). It is made of the first ones of all entries before the cutoff
(`AllBefore.firstBefore`). Both caches list them (`Memory.exists_allBefore`,
`Relational.exists_allBefore`). -/

namespace PaperIndex.Cache

open Time (Instant)

/-- An entry comes before another one in a scan. -/
def Precedes (a b : IndexedRecord) : Prop :=
  a.indexedAt < b.indexedAt ∨ a.indexedAt = b.indexedAt ∧ a.uri < b.uri

/-- **The first entries before a cutoff**, at most as many as the limit. -/
structure FirstBefore (entries : String → Option IndexedRecord) (cutoff : Instant) (limit : Nat)
    (es : List IndexedRecord) : Prop where
  entry : ∀ e ∈ es, entries e.uri = some e
  stale : ∀ e ∈ es, e.indexedAt < cutoff
  ordered : es.Pairwise Precedes
  length_le : es.length ≤ limit
  /-- An entry is left out only if the limit is reached by entries that come before it. -/
  rest : ∀ uri e, entries uri = some e → e.indexedAt < cutoff → e ∉ es →
    es.length = limit ∧ ∀ c ∈ es, Precedes c e

/-- Every entry stands under its URI. -/
def Named (entries : String → Option IndexedRecord) : Prop :=
  ∀ uri e, entries uri = some e → e.uri = uri

/-- **All entries before a cutoff**, in the order of a scan. -/
structure AllBefore (entries : String → Option IndexedRecord) (cutoff : Instant)
    (all : List IndexedRecord) : Prop where
  mem_iff : ∀ e, e ∈ all ↔ entries e.uri = some e ∧ e.indexedAt < cutoff
  ordered : all.Pairwise Precedes

theorem Precedes.asymm {a b : IndexedRecord} (h : Precedes a b) : ¬Precedes b a := by
  rintro (hlt | ⟨heq, hlt⟩) <;> rcases h with hlt' | ⟨heq', hlt'⟩
  · exact hlt.asymm hlt'
  · exact hlt.ne' heq'
  · exact hlt'.ne' heq
  · exact hlt.asymm hlt'

theorem scanOrder_iff (a b : IndexedRecord) : scanOrder a b = true ↔
    a.indexedAt < b.indexedAt ∨ a.indexedAt = b.indexedAt ∧ a.uri ≤ b.uri := by
  simp [scanOrder]

section FirstBefore
variable {entries : String → Option IndexedRecord} {cutoff : Instant} {limit : Nat}

theorem FirstBefore.nodup {es : List IndexedRecord} (h : FirstBefore entries cutoff limit es) :
    (es.map (·.uri)).Nodup := by
  refine List.pairwise_map.2 (h.ordered.imp_of_mem fun {a b} ha hb hab huri => ?_)
  -- Two entries of one URI are the same entry, and none comes before itself.
  have hsame : some a = some b := by rw [← h.entry a ha, ← h.entry b hb, huri]
  obtain rfl := Option.some.inj hsame
  exact hab.asymm hab

/-- **There is one such list.** -/
theorem FirstBefore.unique {es es' : List IndexedRecord} (h : FirstBefore entries cutoff limit es)
    (h' : FirstBefore entries cutoff limit es') : es = es' := by
  have hmem : ∀ {xs ys}, FirstBefore entries cutoff limit xs → FirstBefore entries cutoff limit ys →
      ∀ e ∈ xs, e ∈ ys := by
    intro xs ys hxs hys e he
    by_contra hout
    obtain ⟨hlength, hbefore⟩ := hys.rest _ e (hxs.entry e he) (hxs.stale e he) hout
    -- All of `ys` comes before `e`, so it is in `xs` too, which is then too long.
    have hsub : ∀ c ∈ e :: ys, c ∈ xs := by
      intro c hc
      rcases List.mem_cons.1 hc with rfl | hc
      · exact he
      · by_contra hout'
        have hafter := (hxs.rest _ c (hys.entry c hc) (hys.stale c hc) hout').2 e he
        exact (hbefore c hc).asymm hafter
    have hnodup : (e :: ys).Nodup := List.nodup_cons.2 ⟨hout, hys.nodup.of_map⟩
    have hle := (List.subperm_of_subset hnodup hsub).length_le
    have hlimit := hxs.length_le
    rw [List.length_cons] at hle
    omega
  have hperm : es.Perm es' := (List.perm_ext_iff_of_nodup h.nodup.of_map h'.nodup.of_map).2
    fun e => ⟨hmem h h' e, hmem h' h e⟩
  exact hperm.eq_of_pairwise (fun a b _ _ hab hba => absurd hba hab.asymm) h.ordered h'.ordered

/-- The first ones of all entries before a cutoff. -/
theorem AllBefore.firstBefore {all : List IndexedRecord} (hnamed : Named entries)
    (h : AllBefore entries cutoff all) (limit : Nat) :
    FirstBefore entries cutoff limit (all.take limit) := by
  have htaken : ∀ e ∈ all.take limit, entries e.uri = some e ∧ e.indexedAt < cutoff :=
    fun e he => (h.mem_iff e).1 (List.mem_of_mem_take he)
  refine ⟨fun e he => (htaken e he).1, fun e he => (htaken e he).2,
    h.ordered.sublist (List.take_sublist limit all), ?_, ?_⟩
  · rw [List.length_take]
    exact Nat.min_le_left _ _
  · intro uri e hentry hbefore hout
    have hdropped : e ∈ all.drop limit := by
      have he : e ∈ all := (h.mem_iff e).2 ⟨hnamed uri e hentry ▸ hentry, hbefore⟩
      rw [← List.take_append_drop limit all] at he
      exact (List.mem_append.1 he).resolve_left hout
    have hlimit : limit < all.length := by
      have := List.length_pos_of_mem hdropped
      rw [List.length_drop] at this
      omega
    refine ⟨List.length_take_of_le hlimit.le, fun c hc => ?_⟩
    have hordered := h.ordered
    rw [← List.take_append_drop limit all] at hordered
    exact (List.pairwise_append.1 hordered).2.2 c hc e hdropped

/-- **All entries before a cutoff** have one such list, without any limit. -/
theorem AllBefore.unique {all all' : List IndexedRecord} (hnamed : Named entries)
    (h : AllBefore entries cutoff all) (h' : AllBefore entries cutoff all') : all = all' := by
  have hfirst := h.firstBefore hnamed (all.length + all'.length)
  have hfirst' := h'.firstBefore hnamed (all.length + all'.length)
  have hsame := hfirst.unique hfirst'
  rwa [List.take_of_length_le (Nat.le_add_right _ _),
    List.take_of_length_le (Nat.le_add_left _ _)] at hsame

/-- The list that a scan sorts. -/
theorem allBefore_sorted {all : List IndexedRecord} (hnodup : (all.map (·.uri)).Nodup)
    (hmem : ∀ e, e ∈ all ↔ entries e.uri = some e) (cutoff : Instant) :
    AllBefore entries cutoff ((all.filter fun e => e.indexedAt < cutoff).mergeSort scanOrder) := by
  refine ⟨fun e => ?_,
    pairwise_twoKeys scanOrder_iff (hnodup.sublist (List.filter_sublist.map _))⟩
  rw [List.mem_mergeSort, List.mem_filter, hmem, decide_eq_true_eq]

end FirstBefore

/-! ### The scans of the caches -/

theorem Memory.keyed_iff {m : Memory} : m.Keyed ↔ Named m.entryAt := by
  unfold Memory.Keyed Named entryAt
  constructor
  · exact fun h uri e he => h _ (Table.find?_eq_some_iff.1 he)
  · exact fun h x hx => h x.1 x.2 (Table.find?_eq_some_iff.2 hx)

theorem Relational.named_entryAt (r : Relational) : Named r.entryAt := by
  intro uri e he
  obtain ⟨row, -, rfl⟩ := Option.map_eq_some_iff.1 he
  rfl

/-- **The scan of the cache in memory** lists all entries before the cutoff, up to the limit. -/
theorem Memory.exists_allBefore {m : Memory} (h : m.Keyed) (cutoff : Instant) :
    ∃ all, AllBefore m.entryAt cutoff all ∧
      ∀ limit, store.indexedBefore cutoff limit m = .ok (all.take limit) := by
  refine ⟨_, allBefore_sorted ?_ (fun e => ?_) cutoff, fun limit => rfl⟩
  · have hkeys : (m.records.rows.map Prod.snd).map (·.uri) = m.records.rows.map Prod.fst := by
      rw [List.map_map]
      exact List.map_congr_left h
    rw [hkeys]
    exact m.records.nodup
  · rw [entryAt, Table.find?_eq_some_iff, List.mem_map]
    constructor
    · rintro ⟨⟨uri, _⟩, hrow, rfl⟩
      rwa [h _ hrow]
    · exact fun hrow => ⟨_, hrow, rfl⟩

instance (a b : IndexedRecord) : Decidable (Precedes a b) := inferInstanceAs (Decidable (_ ∨ _))

/-- A scan of the cache in memory whose entries are known in their order. -/
theorem Memory.indexedBefore_of_perm {m : Memory} {cutoff : Instant} {all : List IndexedRecord}
    (hperm : all.Perm ((m.records.rows.map Prod.snd).filter fun e => e.indexedAt < cutoff))
    (hnodup : (all.map (·.uri)).Nodup) (hordered : all.Pairwise Precedes) (limit : Nat) :
    store.indexedBefore cutoff limit m = .ok (all.take limit) := by
  have hsorted := pairwise_twoKeys scanOrder_iff ((hperm.map (·.uri)).nodup_iff.1 hnodup)
  have hsame := ((List.mergeSort_perm _ scanOrder).trans hperm.symm).eq_of_pairwise
    (fun _ _ _ _ hab hba => absurd hba (Precedes.asymm hab)) hsorted hordered
  exact congrArg (fun es => Except.ok (List.take limit es)) hsame

/-- **The scan of the relational cache** lists all entries before the cutoff, up to the limit. -/
theorem Relational.exists_allBefore {r : Relational} (h : r.Dated) (cutoff : Instant) :
    ∃ all, AllBefore r.entryAt cutoff all ∧
      ∀ limit, store.indexedBefore cutoff limit r = .ok (all.take limit) := by
  refine ⟨_, allBefore_sorted ?_ (fun e => ?_) cutoff, fun limit => indexedBefore_eq h cutoff limit⟩
  · rw [entries, List.map_map]
    exact r.records.nodup
  · rw [entryAt, entries, Option.map_eq_some_iff, List.mem_map]
    constructor
    · rintro ⟨⟨uri, row⟩, hrow, rfl⟩
      exact ⟨row, Table.find?_eq_some_iff.2 hrow, rfl⟩
    · rintro ⟨row, hfind, hrow⟩
      exact ⟨(e.uri, row), Table.find?_eq_some_iff.1 hfind, hrow⟩

theorem Memory.indexedBefore_spec {m : Memory} (h : m.Keyed) (cutoff : Instant) (limit : Nat) :
    ∃ es, store.indexedBefore cutoff limit m = .ok es ∧
      FirstBefore m.entryAt cutoff limit es := by
  obtain ⟨all, hall, hscan⟩ := exists_allBefore h cutoff
  exact ⟨_, hscan limit, hall.firstBefore (keyed_iff.1 h) limit⟩

theorem Relational.indexedBefore_spec {r : Relational} (h : r.Dated) (cutoff : Instant)
    (limit : Nat) :
    ∃ es, store.indexedBefore cutoff limit r = .ok es ∧
      FirstBefore r.entryAt cutoff limit es := by
  obtain ⟨all, hall, hscan⟩ := exists_allBefore h cutoff
  exact ⟨_, hscan limit, hall.firstBefore r.named_entryAt limit⟩

end PaperIndex.Cache
