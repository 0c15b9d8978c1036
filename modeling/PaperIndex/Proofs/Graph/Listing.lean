import PaperIndex.Proofs.Graph.Mirror
import PaperIndex.Proofs.Sorting

/-! # Listings of citations

A listing shows the citations that have a URI at one end, each of them once, in a strict order: the
newest discovery first, and then by the other end (`Lists`). The order is strict because two
citations of one listing have different other ends. Both listings in memory are of this kind
(`lists_citing`, `lists_references`), and they are as long as the counts say. -/

namespace PaperIndex.Graph

open Time (Instant)

/-- A citation comes before another one in a listing, where `other` selects the ends that differ. -/
def ListedBefore (other : Edge → String) (a b : Edge) : Prop :=
  b.discoveredAt < a.discoveredAt ∨ a.discoveredAt = b.discoveredAt ∧ other a < other b

/-- **A listing** has all citations with `uri` at the end that `here` selects, in strict order. -/
structure Lists (has : Edge → Prop) (here other : Edge → String) (uri : String)
    (es : List Edge) : Prop where
  mem_iff : ∀ e, e ∈ es ↔ has e ∧ here e = uri
  ordered : es.Pairwise (ListedBefore other)

theorem Lists.congr {has has' : Edge → Prop} {here other : Edge → String} {uri : String}
    {es : List Edge} (h : Lists has here other uri es) (hhas : ∀ e, has' e ↔ has e) :
    Lists has' here other uri es :=
  ⟨fun e => by rw [h.mem_iff, hhas], h.ordered⟩

theorem listingOrder_iff (other : Edge → String) (a b : Edge) : listingOrder other a b = true ↔
    OrderDual.toDual a.discoveredAt < OrderDual.toDual b.discoveredAt ∨
      OrderDual.toDual a.discoveredAt = OrderDual.toDual b.discoveredAt ∧ other a ≤ other b := by
  simp [listingOrder]

namespace Memory

/-- Whether a citation is in the graph. -/
def Has (m : Memory) (e : Edge) : Prop :=
  m.edges.find? (e.citing, e.cited) = some ⟨e.isInfluential, e.source, e.discoveredAt⟩

theorem has_iff {m : Memory} {e : Edge} : m.Has e ↔ ∃ x ∈ m.edges.rows, edgeOf x = e := by
  rw [Has, Table.find?_eq_some_iff]
  constructor
  · intro h
    exact ⟨_, h, rfl⟩
  · rintro ⟨x, hx, rfl⟩
    exact hx

/-- **The citations that pass a test**, if they differ in the end that `other` selects. -/
theorem lists_filter (m : Memory) {here other : Edge → String} {uri : String}
    {test : (String × String) × Attributes → Bool}
    (htest : ∀ x, test x = true ↔ here (edgeOf x) = uri)
    (hends : ∀ x y, here (edgeOf x) = here (edgeOf y) → other (edgeOf x) = other (edgeOf y) →
      x.1 = y.1) :
    Lists m.Has here other uri
      (((m.edges.rows.filter test).map edgeOf).mergeSort (listingOrder other)) where
  mem_iff e := by
    rw [List.mem_mergeSort, has_iff]
    constructor
    · intro he
      obtain ⟨x, hx, rfl⟩ := List.mem_map.1 he
      obtain ⟨hrow, hpass⟩ := List.mem_filter.1 hx
      exact ⟨⟨x, hrow, rfl⟩, (htest x).1 hpass⟩
    · rintro ⟨⟨x, hrow, rfl⟩, huri⟩
      exact List.mem_map_of_mem (List.mem_filter.2 ⟨hrow, (htest x).2 huri⟩)
  ordered := by
    -- No two rows have the same key, so rows with one end in common differ in the other one.
    have hnodup : (((m.edges.rows.filter test).map edgeOf).map other).Nodup := by
      rw [List.map_map]
      refine List.Nodup.map_on (fun x hx y hy hxy => ?_) (m.edges.nodup_rows.filter _)
      obtain ⟨hx, hx'⟩ := List.mem_filter.1 hx
      obtain ⟨hy, hy'⟩ := List.mem_filter.1 hy
      have hhere := ((htest x).1 hx').trans ((htest y).1 hy').symm
      exact List.inj_on_of_nodup_map m.edges.nodup hx hy (hends x y hhere hxy)
    exact pairwise_twoKeys (listingOrder_iff other) hnodup

/-- **The listing of the citations of a paper.** -/
theorem lists_citing (m : Memory) (uri : String) :
    Lists m.Has (·.cited) (·.citing) uri (m.citingEdges uri) :=
  m.lists_filter (fun _ => beq_iff_eq) fun _ _ hcited hciting => Prod.ext hciting hcited

/-- **The listing of the citations that a paper makes.** -/
theorem lists_references (m : Memory) (uri : String) :
    Lists m.Has (·.citing) (·.cited) uri (m.referenceEdges uri) :=
  m.lists_filter (fun _ => beq_iff_eq) fun _ _ hciting hcited => Prod.ext hciting hcited

theorem length_citingEdges (m : Memory) (uri : String) :
    (m.citingEdges uri).length = m.countCiting uri := by
  rw [citingEdges, List.length_mergeSort, List.length_map, countCiting,
    List.countP_eq_length_filter]

theorem length_referenceEdges (m : Memory) (uri : String) :
    (m.referenceEdges uri).length = m.countReferences uri := by
  rw [referenceEdges, List.length_mergeSort, List.length_map, countReferences,
    List.countP_eq_length_filter]

end Memory

namespace Relational

/-- Whether a citation is in the relation. -/
def Has (r : Relational) (e : Edge) : Prop :=
  r.citations.find? (e.citing, e.cited) = some ⟨e.isInfluential, e.source, e.discoveredAt⟩

end Relational

theorem Mirrors.has_iff {m : Memory} {r : Relational} (h : Mirrors m r) (e : Edge) :
    r.Has e ↔ m.Has e := by
  rw [Relational.Has, Memory.Has, h.citations, Table.find?_mapValues, Option.map_eq_some_iff]
  constructor
  · rintro ⟨a, ha, hrow⟩
    cases a
    cases hrow
    exact ha
  · intro he
    exact ⟨_, he, rfl⟩

end PaperIndex.Graph
