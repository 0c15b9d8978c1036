import PaperIndex.Graph.Relational
import PaperIndex.Proofs.Fallible
import PaperIndex.Proofs.Graph.Edges

/-! # The two graphs side by side

The relational graph mirrors the graph in memory if both have the same papers and the relation of
citations holds the table of the other graph, row by row (`Mirrors`). Every call keeps this and
answers alike. -/

namespace PaperIndex.Graph

open Time (Instant)

/-- The columns for attributes. -/
def Attributes.row (a : Attributes) : CitationRow := ⟨a.isInfluential, a.source, a.discoveredAt⟩

/-- **The relational graph mirrors the one in memory.** -/
structure Mirrors (m : Memory) (r : Relational) : Prop where
  papers : ∀ uri, r.papers.contains uri = m.isPaper uri
  citations : r.citations = m.edges.mapValues Attributes.row

namespace Relational

theorem papers_addPaper (g : Relational) (uri u : String) :
    (store.addPaper uri g).2.papers.contains u = (u == uri || g.papers.contains u) := by
  change (if _ then g else _ : Relational).papers.contains u = _
  by_cases hpaper : g.papers.contains uri = true
  · rw [if_pos hpaper]
    by_cases hu : u = uri
    · rw [hu, hpaper, Bool.or_true]
    · rw [beq_false_of_ne hu, Bool.false_or]
  · rw [if_neg hpaper, ← Table.isSome_find?, ← Table.isSome_find?, Table.find?_insert]
    by_cases hu : u = uri <;> simp [hu]

theorem papers_removePaper (g : Relational) (uri u : String) :
    (store.removePaper uri g).2.papers.contains u = (u != uri && g.papers.contains u) := by
  change (g.papers.erase uri).contains u = _
  rw [← Table.isSome_find?, ← Table.isSome_find?, Table.find?_erase]
  by_cases hu : u = uri <;> simp [hu]

end Relational

namespace Mirrors

variable {m : Memory} {r : Relational}

theorem empty : Mirrors .empty .empty := ⟨fun _ => rfl, rfl⟩

/-- The same pairs of ends have citations on both sides. -/
theorem contains (h : Mirrors m r) : r.citations.contains = m.edges.contains := by
  funext key
  rw [← Table.isSome_find?, ← Table.isSome_find?, h.citations, Table.find?_mapValues,
    Option.isSome_map]

theorem addPaper (h : Mirrors m r) (uri : String) :
    Mirrors (Memory.store.addPaper uri m).2 (Relational.store.addPaper uri r).2 where
  papers u := by rw [Relational.papers_addPaper, Memory.isPaper_addPaper, h.papers]
  citations := by
    change (if _ then r else _ : Relational).citations = m.edges.mapValues Attributes.row
    split <;> exact h.citations

/-- The citations without those at a URI, on both sides. -/
theorem without (h : Mirrors m r) (uri : String) :
    (r.deleteFor uri).2.citations = (m.without uri).mapValues Attributes.row := by
  change r.citations.filter (fun key _ => !Relational.touches uri key) = _
  rw [h.citations, Table.filter_mapValues, Memory.without]
  refine congrArg (fun p => (m.edges.filter p).mapValues Attributes.row) ?_
  funext key a
  exact Bool.not_or _ _

theorem deleteFor (h : Mirrors m r) (uri : String) :
    Mirrors (Memory.store.deleteFor uri m).2 (Relational.store.deleteFor uri r).2 :=
  ⟨h.papers, h.without uri⟩

theorem removePaper (h : Mirrors m r) (uri : String) :
    Mirrors (Memory.store.removePaper uri m).2 (Relational.store.removePaper uri r).2 where
  papers u := by rw [Relational.papers_removePaper, Memory.isPaper_removePaper, h.papers]
  citations := h.without uri

theorem fst_removePaper (h : Mirrors m r) (uri : String) :
    (Relational.store.removePaper uri r).1 = (Memory.store.removePaper uri m).1 :=
  congrArg Except.ok (h.papers uri)

theorem fst_deleteFor (h : Mirrors m r) (uri : String) :
    (Relational.store.deleteFor uri r).1 = (Memory.store.deleteFor uri m).1 := by
  refine congrArg Except.ok ?_
  refine Eq.trans ?_ (m.size_sub_without uri).symm
  rw [h.citations, Table.rows_mapValues, List.countP_map]
  rfl

theorem insertCitation (h : Mirrors m r) (now : Instant) (c : Citation) :
    (r.insertCitation now c).1 = (if m.admits c then 1 else 0) ∧
      Mirrors (if m.admits c then { m with edges := Memory.put m.edges now c } else m)
        (r.insertCitation now c).2 := by
  have hadmits : (r.papers.contains c.citing && r.papers.contains c.cited) = m.admits c := by
    rw [h.papers, h.papers]
    rfl
  have hcontains : r.citations.contains (c.citing, c.cited) =
      (m.edges.find? (c.citing, c.cited)).isSome := by
    rw [h.contains, Table.isSome_find?]
  unfold Relational.insertCitation Memory.put
  simp only [hadmits, hcontains]
  by_cases hc : m.admits c = true
  · simp only [if_pos hc]
    by_cases hfound : (m.edges.find? (c.citing, c.cited)).isSome = true
    · simp only [if_pos hfound, h.citations]
      refine ⟨trivial, h.papers, ?_⟩
      dsimp only
      exact Table.modify_mapValues Attributes.row (fun _ => rfl) m.edges _
    · simp only [if_neg hfound, h.citations]
      exact ⟨trivial, h.papers,
        Table.insert_mapValues Attributes.row m.edges _ ⟨c.isInfluential, c.source, now⟩⟩
  · simp only [if_neg hc]
    exact ⟨trivial, h⟩

/-- Citations inserted in turn are counted as far as they are admitted. -/
theorem foldl_insertCitation (h : Mirrors m r) (now : Instant) (cs : List Citation) (n : Nat) :
    let inserted := cs.foldl (fun (n, r) c =>
      let (k, r) := r.insertCitation now c
      (n + k, r)) (n, r)
    inserted.1 = n + (cs.filter m.admits).length ∧
      Mirrors { m with edges := Memory.putAll m.edges now (cs.filter m.admits) } inserted.2 := by
  induction cs generalizing m r n with
  | nil => exact ⟨rfl, h⟩
  | cons c cs ih =>
    obtain ⟨hcount, hstep⟩ := h.insertCitation now c
    rw [List.foldl_cons]
    by_cases hc : m.admits c = true
    · rw [if_pos hc] at hcount hstep
      obtain ⟨hcounts, hsteps⟩ := ih hstep (n + (r.insertCitation now c).1)
      rw [List.filter_cons_of_pos hc]
      refine ⟨hcounts.trans ?_, hsteps⟩
      rw [hcount, List.length_cons, Nat.add_assoc, Nat.add_comm 1]
      rfl
    · rw [if_neg hc] at hcount hstep
      obtain ⟨hcounts, hsteps⟩ := ih hstep (n + (r.insertCitation now c).1)
      rw [List.filter_cons_of_neg hc]
      refine ⟨hcounts.trans ?_, hsteps⟩
      rw [hcount, Nat.add_zero]

/-- **A batch** has the same outcome on both sides. -/
theorem merge (h : Mirrors m r) (batch : Batch) :
    (Relational.store.merge batch r).1 = (Memory.store.merge batch m).1 ∧
      Mirrors (Memory.store.merge batch m).2 (Relational.store.merge batch r).2 := by
  obtain ⟨hcount, hstep⟩ := h.foldl_insertCitation batch.discoveredAt batch.citations 0
  rw [Memory.merge_eq]
  refine ⟨congrArg Except.ok (hcount.trans (Nat.zero_add _)), hstep⟩

end Mirrors

/-! ### Listings -/

/-- All citations were discovered at instants that have dates. -/
def Memory.Dated (m : Memory) : Prop := ∀ x ∈ m.edges.rows, Time.hasDate x.2.discoveredAt = true

theorem slice_map {α β : Type} (f : α → β) (limit offset : Nat) (xs : List α) :
    slice limit offset (xs.map f) = (slice limit offset xs).map f := by
  rw [slice, ← List.map_drop, ← List.map_take]
  rfl

theorem mem_of_mem_slice {α : Type} {limit offset : Nat} {xs : List α} {x : α}
    (h : x ∈ slice limit offset xs) : x ∈ xs :=
  List.mem_of_mem_drop (List.mem_of_mem_take h)

namespace Mirrors

variable {m : Memory} {r : Relational}

/-- **A listing** of the rows that pass a test is the same on both sides. -/
theorem list (h : Mirrors m r) (hdated : m.Dated) (test : String × String → Bool)
    (other : String × String → String) (end_ : Edge → String)
    (hother : ∀ x, end_ (Memory.edgeOf x) = other x.1) (limit offset : Nat) :
    r.list test other limit offset = .ok (slice limit offset
      (((m.edges.rows.filter fun x => test x.1).map Memory.edgeOf).mergeSort
        (listingOrder end_))) := by
  -- Rows are sorted by the columns that edges are sorted by, so sorting commutes with reading.
  let le (x y : (String × String) × Attributes) : Bool :=
    listingOrder end_ (Memory.edgeOf x) (Memory.edgeOf y)
  let sorted := (m.edges.rows.filter fun x => test x.1).mergeSort le
  have hrows : (r.citations.rows.filter fun row => test row.1).mergeSort
      (Relational.rowOrder other) =
      sorted.map fun x => (x.1, x.2.row) := by
    rw [h.citations, Table.rows_mapValues, List.filter_map]
    refine (List.map_mergeSort fun x _ y _ => ?_).symm
    change (_ || (_ && decide (end_ _ ≤ end_ _))) = _
    rw [hother, hother]
    rfl
  have hedges : ((m.edges.rows.filter fun x => test x.1).map Memory.edgeOf).mergeSort
      (listingOrder end_) = sorted.map Memory.edgeOf :=
    (List.map_mergeSort (f := Memory.edgeOf) (r := le) fun _ _ _ _ => rfl).symm
  have hread : ∀ x ∈ slice limit offset sorted,
      Relational.edgeOf (x.1, x.2.row) = .ok (Memory.edgeOf x) := by
    intro x hx
    have hrow := (List.mem_filter.1 (List.mem_mergeSort.1 (mem_of_mem_slice hx))).1
    exact if_pos (hdated x hrow)
  rw [Relational.list, hrows, hedges, slice_map, slice_map, List.mapM_map]
  exact mapM_eq_ok hread

theorem count (h : Mirrors m r) (test : String × String → Bool) :
    r.count test = m.edges.rows.countP fun x => test x.1 := by
  rw [Relational.count, h.citations, Table.rows_mapValues, List.countP_map]
  rfl

theorem citing (h : Mirrors m r) (hdated : m.Dated) (uri : String) (limit offset : Nat) :
    Relational.store.citing uri limit offset r = Memory.store.citing uri limit offset m :=
  h.list hdated (·.2 == uri) (·.1) (·.citing) (fun _ => rfl) limit offset

theorem countCiting (h : Mirrors m r) (uri : String) :
    Relational.store.countCiting uri r = Memory.store.countCiting uri m :=
  congrArg Except.ok (h.count (·.2 == uri))

theorem references (h : Mirrors m r) (hdated : m.Dated) (uri : String) (limit offset : Nat) :
    Relational.store.references uri limit offset r = Memory.store.references uri limit offset m :=
  h.list hdated (·.1 == uri) (·.2) (·.cited) (fun _ => rfl) limit offset

theorem countReferences (h : Mirrors m r) (uri : String) :
    Relational.store.countReferences uri r = Memory.store.countReferences uri m :=
  congrArg Except.ok (h.count (·.1 == uri))

end Mirrors

end PaperIndex.Graph
