import Mathlib.Algebra.Order.Floor.Div
import PaperIndex.Proofs.Citations.Agreement

/-! # Listings read page by page

A listing is read by asking for one page after the other, from the offset 0 on, as long as a page
says that there are more (`PagesFrom`). Every page is a slice of the listing together with its whole
length, so the pages are as few as the limit allows and put the listing together again
(`exists_pagesFrom`). `pages_partition` says this for both listings of a URI after every session. -/

namespace PaperIndex.Citations

open PaperIndex.Graph (Lists Memory Relational slice)

/-! ### Reading page by page -/

/-- The pages that are read from an offset on: it is advanced by the limit while there are more. -/
inductive PagesFrom (ask : Nat → Except IndexError Page) (limit : Nat) : Nat → List Page → Prop
  | last {offset : Nat} {p : Page} (hp : ask offset = .ok p) (hlast : p.hasMore = false) :
    PagesFrom ask limit offset [p]
  | more {offset : Nat} {p : Page} {ps : List Page} (hp : ask offset = .ok p)
    (hmore : p.hasMore = true) (hps : PagesFrom ask limit (offset + limit) ps) :
    PagesFrom ask limit offset (p :: ps)

/-- There is one way to read. -/
theorem PagesFrom.unique {ask : Nat → Except IndexError Page} {limit offset : Nat}
    {ps ps' : List Page} (h : PagesFrom ask limit offset ps) (h' : PagesFrom ask limit offset ps') :
    ps' = ps := by
  induction h generalizing ps' with
  | last hp hlast =>
    cases h' with
    | last hp' hlast' => rw [Except.ok.inj (hp'.symm.trans hp)]
    | more hp' hmore' hps' =>
      rw [Except.ok.inj (hp'.symm.trans hp), hlast] at hmore'
      cases hmore'
  | more hp hmore hps ih =>
    cases h' with
    | last hp' hlast' =>
      rw [Except.ok.inj (hp'.symm.trans hp), hmore] at hlast'
      cases hlast'
    | more hp' hmore' hps' => rw [Except.ok.inj (hp'.symm.trans hp), ih hps']

/-- **The pages of a listing** put it together again, and there are no more of them than the limit
makes necessary. -/
structure Partitions (ask : Nat → Except IndexError Page) (limit : Nat) (es : List Edge) :
    Prop where
  /-- A page is a slice of the listing, wherever it begins. -/
  page : ∀ offset, ∃ p, ask offset = .ok p ∧ p.citations = (es.drop offset).take limit ∧
    p.total = es.length ∧ (p.hasMore = true ↔ offset + p.citations.length < es.length)
  /-- Reading page by page comes to an end, at offsets of 32 bits. -/
  read : ∃ ps, (∀ ps', PagesFrom ask limit 0 ps' ↔ ps' = ps) ∧
    ps.length = max 1 (es.length ⌈/⌉ limit) ∧ ps.flatMap (·.citations) = es ∧
    ∀ i < ps.length, i * limit < 2 ^ 32

section Partition
variable {ask : Nat → Except IndexError Page} {limit : Nat} {es : List Edge} (hpos : 0 < limit)
  (hask : ∀ offset, ask offset = .ok (pageOf offset (slice limit offset es) es.length))
include hpos hask

/-- **The pages from an offset on** put together what the listing has from there on. -/
theorem exists_pagesFrom (offset : Nat) : ∃ ps, PagesFrom ask limit offset ps ∧
    ps.length = max 1 ((es.length - offset) ⌈/⌉ limit) ∧
    ps.flatMap (·.citations) = es.drop offset := by
  -- The induction is on what is left of the listing; a page with more after it is a full one.
  induction hleft : es.length - offset using Nat.strong_induction_on generalizing offset with
  | _ left ih =>
    have hslice : (slice limit offset es).length = min limit left := by
      rw [slice, List.length_take, List.length_drop, hleft]
    by_cases hmore : limit < left
    · obtain ⟨ps, hps, hlength, hcitations⟩ :=
        ih (left - limit) (by omega) (offset + limit) (by omega)
      have hhas : (pageOf offset (slice limit offset es) es.length).hasMore = true := by
        rw [pageOf, hslice, decide_eq_true_iff]
        omega
      refine ⟨_ :: ps, .more (hask offset) hhas hps, ?_, ?_⟩
      · have hstep : left ⌈/⌉ limit = (left - limit) ⌈/⌉ limit + 1 := by
          rw [Nat.ceilDiv_eq_add_pred_div, Nat.ceilDiv_eq_add_pred_div, ← Nat.add_div_right _ hpos]
          congr 1
          omega
        have hone : 1 ≤ (left - limit) ⌈/⌉ limit := by
          rw [Nat.ceilDiv_eq_add_pred_div]
          exact Nat.div_pos (by omega) hpos
        rw [List.length_cons, hlength, hstep]
        omega
      · rw [List.flatMap_cons, hcitations, ← List.drop_drop]
        exact List.take_append_drop limit (es.drop offset)
    · have hhas : (pageOf offset (slice limit offset es) es.length).hasMore = false := by
        rw [pageOf, hslice, decide_eq_false_iff_not]
        omega
      refine ⟨[_], .last (hask offset) hhas, ?_, ?_⟩
      · have hone : left ⌈/⌉ limit ≤ 1 := by
          rw [Nat.ceilDiv_eq_add_pred_div]
          exact Nat.le_of_lt_succ (Nat.div_lt_of_lt_mul (by omega))
        rw [List.length_singleton]
        omega
      · rw [List.flatMap_singleton]
        exact List.take_of_length_le (by rw [List.length_drop]; omega)

theorem partitions (hlength : es.length < 2 ^ 32) : Partitions ask limit es where
  page offset := ⟨_, hask offset, rfl, rfl, decide_eq_true_iff⟩
  read := by
    obtain ⟨ps, hps, hcount, hcitations⟩ := exists_pagesFrom hpos hask 0
    refine ⟨ps, fun ps' => ⟨hps.unique, fun h => h ▸ hps⟩, hcount, hcitations, fun i hi => ?_⟩
    -- Only the first page may be asked for at the end of the listing.
    rw [hcount, Nat.sub_zero, Nat.ceilDiv_eq_add_pred_div] at hi
    rcases Nat.eq_zero_or_pos i with rfl | hi'
    · omega
    · have hlt : i + 1 ≤ (es.length + limit - 1) / limit := by omega
      have hmul := (Nat.le_div_iff_mul_le hpos).1 hlt
      rw [Nat.add_mul, Nat.one_mul] at hmul
      omega

end Partition

/-! ### The pages of the engine -/

/-- **Both listings of a URI** are partitioned by their pages. -/
structure Paginates {γ : Type} (e : Engine γ) (has : γ → Edge → Prop) (st : γ) (uri : String)
    (limit : Nat) : Prop where
  citing : ∃ es, Lists (has st) (·.cited) (·.citing) uri es ∧
    Partitions (fun offset => e.citing uri ⟨some limit, some offset⟩ st) limit es
  references : ∃ es, Lists (has st) (·.citing) (·.cited) uri es ∧
    Partitions (fun offset => e.references uri ⟨some limit, some offset⟩ st) limit es

theorem Engine.pageBounds_some {γ : Type} {e : Engine γ} {limit : Nat} (hpos : 1 ≤ limit)
    (hmax : limit ≤ e.maxLimit) (offset : Nat) :
    e.pageBounds ⟨some limit, some offset⟩ = .ok (limit, offset) :=
  if_neg (by simp only [Option.getD_some]; omega)

section Engine
variable {defaultLimit maxLimit : Nat} {m : Memory} {page : PageRequest} {bounds : Nat × Nat}

theorem citing_inMemory (uri : String)
    (hbounds : (inMemory defaultLimit maxLimit).pageBounds page = .ok bounds) :
    (inMemory defaultLimit maxLimit).citing uri page m =
      .ok (pageOf bounds.2 (slice bounds.1 bounds.2 (m.citingEdges uri))
        (m.citingEdges uri).length) := by
  unfold Engine.citing
  rw [hbounds, m.length_citingEdges]
  rfl

theorem references_inMemory (uri : String)
    (hbounds : (inMemory defaultLimit maxLimit).pageBounds page = .ok bounds) :
    (inMemory defaultLimit maxLimit).references uri page m =
      .ok (pageOf bounds.2 (slice bounds.1 bounds.2 (m.referenceEdges uri))
        (m.referenceEdges uri).length) := by
  unfold Engine.references
  rw [hbounds, m.length_referenceEdges]
  rfl

theorem paginates_inMemory (hsize : m.edges.size < 2 ^ 32) (uri : String) {limit : Nat}
    (hpos : 1 ≤ limit) (hmax : limit ≤ maxLimit) :
    Paginates (inMemory defaultLimit maxLimit) Memory.Has m uri limit where
  citing := by
    have hlength : (m.citingEdges uri).length < 2 ^ 32 := by
      rw [m.length_citingEdges]
      exact List.countP_le_length.trans_lt hsize
    exact ⟨_, m.lists_citing uri, partitions hpos
      (fun offset => citing_inMemory uri (Engine.pageBounds_some hpos hmax offset)) hlength⟩
  references := by
    have hlength : (m.referenceEdges uri).length < 2 ^ 32 := by
      rw [m.length_referenceEdges]
      exact List.countP_le_length.trans_lt hsize
    exact ⟨_, m.lists_references uri, partitions hpos
      (fun offset => references_inMemory uri (Engine.pageBounds_some hpos hmax offset)) hlength⟩

theorem Paginates.mirrored {r : Relational} (h : Graph.Mirrors m r) (hdated : m.Dated)
    {uri : String} {limit : Nat}
    (hm : Paginates (inMemory defaultLimit maxLimit) Memory.Has m uri limit) :
    Paginates (relational defaultLimit maxLimit) Relational.Has r uri limit where
  citing := by
    obtain ⟨es, hlists, hpages⟩ := hm.citing
    refine ⟨es, hlists.congr h.has_iff, ?_⟩
    simpa only [citing_relational h hdated] using hpages
  references := by
    obtain ⟨es, hlists, hpages⟩ := hm.references
    refine ⟨es, hlists.congr h.has_iff, ?_⟩
    simpa only [references_relational h hdated] using hpages

end Engine

/-- **Pages partition the listings**, in memory and in the relational graph. After every session
with fewer than `2 ^ 32` citations, for every URI and every limit that is allowed, both listings are
complete and in strict order, every page is a slice of them that tells their length and whether
there are more, and reading page by page comes to an end after as many pages as the limit makes
necessary and gives the listing without gaps or repetitions. -/
theorem pages_partition (defaultLimit maxLimit : Nat) (session : Session)
    (hclock : ∀ call ∈ session, Time.hasDate call.1 = true)
    (hsize : ((inMemory defaultLimit maxLimit).run session .empty).edges.size < 2 ^ 32)
    (uri : String) (limit : Nat) (hpos : 1 ≤ limit) (hmax : limit ≤ maxLimit) :
    Paginates (inMemory defaultLimit maxLimit) Memory.Has
        ((inMemory defaultLimit maxLimit).run session .empty) uri limit ∧
      Paginates (relational defaultLimit maxLimit) Relational.Has
        ((relational defaultLimit maxLimit).run session .empty) uri limit := by
  have hmemory : Paginates (inMemory defaultLimit maxLimit) Memory.Has
      ((inMemory defaultLimit maxLimit).run session .empty) uri limit :=
    paginates_inMemory hsize uri hpos hmax
  exact ⟨hmemory, hmemory.mirrored (mirrors_run session) (dated_run hclock)⟩

/-- Three citers of a paper, two of them found at the same instant, in pages of two. -/
theorem pages_partition_same_instant :
    let session : Session :=
      [(0, .register "a"), (0, .register "b"), (0, .register "c"), (0, .register "d"),
        (1, .submit [⟨"b", "d", true, "s"⟩, ⟨"a", "d", false, "s"⟩, ⟨"d", "d", false, "s"⟩]),
        (2, .submit [⟨"c", "d", false, "s"⟩, ⟨"b", "d", false, "t"⟩, ⟨"c", "a", false, "s"⟩])]
    let r := (relational 50 100).run session .empty
    let ask (offset : Nat) := (relational 50 100).citing "d" ⟨some 2, some offset⟩ r
    let first : List Edge := [⟨"c", "d", false, "s", 2⟩, ⟨"a", "d", false, "s", 1⟩]
    let second : List Edge := [⟨"b", "d", false, "t", 1⟩]
    (∀ call ∈ session, Time.hasDate call.1 = true) ∧
      ((inMemory 50 100).run session .empty).edges.size < 2 ^ 32 ∧ 1 ≤ 2 ∧ 2 ≤ 100 ∧
      PagesFrom ask 2 0 [⟨first, 3, true⟩, ⟨second, 3, false⟩] ∧
      Lists r.Has (·.cited) (·.citing) "d" (first ++ second) := by
  intro session r ask first second
  have hclock : ∀ call ∈ session, Time.hasDate call.1 = true := by
    unfold session
    decide +kernel
  have hsize : ((inMemory 50 100).run session .empty).edges.size < 2 ^ 32 := by
    unfold session
    decide +kernel
  -- The citations of the paper are stored in the order of the listing already.
  let m := (inMemory 50 100).run session .empty
  have hstored : (m.edges.rows.filter fun x => x.1.2 == "d").map Memory.edgeOf =
      first ++ second := by
    unfold first second m session
    decide +kernel
  have hlisted : m.citingEdges "d" = first ++ second := by
    rw [Memory.citingEdges, hstored]
    exact List.mergeSort_of_pairwise (by decide)
  have hask : ∀ offset, ask offset =
      .ok (pageOf offset (slice 2 offset (first ++ second)) (first ++ second).length) := by
    intro offset
    have hbounds : (inMemory 50 100).pageBounds ⟨some 2, some offset⟩ = .ok (2, offset) := rfl
    rw [← hlisted]
    exact (citing_relational (mirrors_run session) (dated_run hclock) "d" _).trans
      (citing_inMemory "d" hbounds)
  have hfirst : ask 0 = .ok ⟨first, 3, true⟩ := hask 0
  have hsecond : ask 2 = .ok ⟨second, 3, false⟩ := hask 2
  have hpages : PagesFrom ask 2 0 [⟨first, 3, true⟩, ⟨second, 3, false⟩] :=
    .more hfirst rfl (.last hsecond rfl)
  obtain ⟨es, hlists, hpartitions⟩ :=
    (pages_partition 50 100 session hclock hsize "d" 2 (by decide) (by decide)).2.citing
  obtain ⟨ps, hread, -, hcitations, -⟩ := hpartitions.read
  obtain rfl := (hread _).1 hpages
  obtain rfl : first ++ second = es := hcitations
  exact ⟨hclock, hsize, by decide, by decide, hpages, hlists⟩

end PaperIndex.Citations
