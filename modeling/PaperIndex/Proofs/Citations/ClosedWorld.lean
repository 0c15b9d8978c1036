import PaperIndex.Proofs.Citations.Agreement
import PaperIndex.Proofs.Fallible

/-! # The closed world of a citation graph

A citation joins two different papers, and there is one for each ordered pair at most
(`ClosedWorld`). The account of a session has this property because a request that takes a paper
away forgets what was accepted at it (`accepts_of_mem_accepted`); so both graphs have it, and
listings show nothing else. -/

namespace PaperIndex

namespace Graph

/-- **A closed world**: the citations, given by their ends, join different papers, and no two of
them have the same ends. -/
structure ClosedWorld (isPaper : String → Bool) (ends : List (String × String)) : Prop where
  papers : ∀ x ∈ ends, isPaper x.1 = true ∧ isPaper x.2 = true
  nonempty : ∀ x ∈ ends, x.1 ≠ "" ∧ x.2 ≠ ""
  distinct : ∀ x ∈ ends, x.1 ≠ x.2
  unique : ends.Nodup

/-- The listings show citations with the given ends only. -/
structure Store.Shows {γ : Type} (s : Store γ) (ends : γ → List (String × String)) : Prop where
  citing : ∀ {uri limit offset st es}, s.citing uri limit offset st = .ok es →
    ∀ e ∈ es, (e.citing, e.cited) ∈ ends st
  references : ∀ {uri limit offset st es}, s.references uri limit offset st = .ok es →
    ∀ e ∈ es, (e.citing, e.cited) ∈ ends st

namespace Memory

theorem ends_mem_keys {m : Memory} {test : (String × String) × Attributes → Bool}
    {le : Edge → Edge → Bool} {limit offset : Nat} {e : Edge}
    (h : e ∈ slice limit offset (((m.edges.rows.filter test).map edgeOf).mergeSort le)) :
    (e.citing, e.cited) ∈ m.edges.keys := by
  obtain ⟨x, hx, rfl⟩ := List.mem_map.1 (List.mem_mergeSort.1 (mem_of_mem_slice h))
  exact List.mem_map_of_mem (List.mem_of_mem_filter hx)

theorem shows : store.Shows fun m => m.edges.keys where
  citing := by
    rintro uri limit offset m es hes e he
    obtain rfl := Except.ok.inj hes
    exact ends_mem_keys he
  references := by
    rintro uri limit offset m es hes e he
    obtain rfl := Except.ok.inj hes
    exact ends_mem_keys he

end Memory

namespace Relational

theorem ends_mem_keys {r : Relational} {test : String × String → Bool}
    {other : String × String → String} {limit offset : Nat} {es : List Edge}
    (h : r.list test other limit offset = .ok es) {e : Edge} (he : e ∈ es) :
    (e.citing, e.cited) ∈ r.citations.keys := by
  obtain ⟨row, hrow, hread⟩ := exists_of_mem_mapM h he
  have hmem := List.mem_of_mem_filter (List.mem_mergeSort.1 (mem_of_mem_slice hrow))
  unfold edgeOf at hread
  split at hread
  · obtain rfl := Except.ok.inj hread
    exact List.mem_map_of_mem hmem
  · cases hread

theorem shows : store.Shows fun r => r.citations.keys where
  citing := by
    intro uri limit offset r es hes e he
    change r.list (·.2 == uri) (·.1) limit offset = .ok es at hes
    exact ends_mem_keys hes he
  references := by
    intro uri limit offset r es hes e he
    change r.list (·.1 == uri) (·.2) limit offset = .ok es at hes
    exact ends_mem_keys hes he

end Relational

end Graph

namespace Citations

open Time (Instant)
open PaperIndex.Graph (ClosedWorld)

/-! ### Accounts -/

theorem papersAfter_of_kept {papers : String → Bool} {a b u : String} {q : Request}
    (h : q.removes a b = false) (hu : u = a ∨ u = b) (hpaper : papers u = true) :
    q.papersAfter papers u = true := by
  cases q with
  | register uri =>
    change (if _ then _ else _ : String → Bool) u = true
    split
    · exact hpaper
    · rw [Function.update_apply, hpaper, ite_self]
  | remove uri =>
    have hne : u ≠ uri := by
      rintro rfl
      rcases hu with rfl | rfl <;> simp [Request.removes] at h
    change Function.update papers uri false u = true
    rw [Function.update_of_ne hne, hpaper]
  | _ => exact hpaper

/-- **What was accepted and not removed** would be accepted again. -/
theorem accepts_of_mem_accepted {session : Session} {a b : String} {x : Acceptance}
    (h : x ∈ (account session).accepted a b) :
    joins a b x.citation = true ∧ accepts (account session).papers x.citation = true := by
  induction session using List.reverseRecOn generalizing x with
  | nil => cases h
  | append_singleton session call ih =>
    rw [account_snoc] at h ⊢
    rw [Account.accepted_after] at h
    by_cases hremoves : call.2.removes a b = true
    · rw [if_pos hremoves] at h
      cases h
    · rw [if_neg hremoves] at h
      have hbefore : joins a b x.citation = true ∧
          accepts (account session).papers x.citation = true := by
        rcases List.mem_append.1 h with hold | hnew
        · exact ih hold
        · exact (mem_acceptances.1 hnew).2.2
      -- The request takes neither end away, or it would have forgotten the acceptance.
      obtain ⟨hjoins, haccepts⟩ := hbefore
      obtain ⟨hends, hpapers⟩ := Bool.and_eq_true_iff.1 haccepts
      obtain ⟨hciting, hcited⟩ := Bool.and_eq_true_iff.1 hpapers
      have hends' := Bool.and_eq_true_iff.1 hjoins
      have hkept := Bool.eq_false_of_not_eq_true hremoves
      refine ⟨hjoins, Bool.and_eq_true_iff.2 ⟨hends, Bool.and_eq_true_iff.2 ⟨?_, ?_⟩⟩⟩
      · exact papersAfter_of_kept hkept (.inl (eq_of_beq hends'.1)) hciting
      · exact papersAfter_of_kept hkept (.inr (eq_of_beq hends'.2)) hcited

/-! ### Graphs -/

theorem closedWorld_of_follows {session : Session} {m : Graph.Memory}
    (h : Follows m (account session)) : ClosedWorld m.isPaper m.edges.keys := by
  have hends : ∀ x ∈ m.edges.keys, (m.isPaper x.1 = true ∧ m.isPaper x.2 = true) ∧
      (x.1 ≠ "" ∧ x.2 ≠ "") ∧ x.1 ≠ x.2 := by
    rintro ⟨a, b⟩ hkey
    have hfind := Option.isSome_iff_ne_none.2 (Table.mem_keys_iff.1 hkey)
    rw [h.edges, isSome_attributesOf_iff] at hfind
    obtain ⟨x, hx⟩ := hfind
    obtain ⟨hjoins, haccepts⟩ := accepts_of_mem_accepted hx
    simp only [joins, accepts, isSubmittable, Bool.and_eq_true, beq_iff_eq, bne_iff_ne,
      Bool.not_eq_true', String.isEmpty_eq_false_iff] at hjoins haccepts
    obtain ⟨rfl, rfl⟩ := hjoins
    obtain ⟨⟨hnonempty, hdistinct⟩, hpapers⟩ := haccepts
    rw [h.isPaper]
    exact ⟨hpapers, hnonempty, hdistinct⟩
  exact ⟨fun x hx => (hends x hx).1, fun x hx => (hends x hx).2.1, fun x hx => (hends x hx).2.2,
    m.edges.nodup⟩

/-! ### Pages -/

/-- The citations of a page come from the listing. -/
theorem exists_of_page (bounds : Except IndexError (Nat × Nat))
    (listing : Nat → Nat → Except StoreError (List Edge)) (count : Except StoreError Nat) {p : Page}
    (h : (do
      let (limit, offset) ← bounds
      let citations ← (listing limit offset).mapError graphFailure
      let total ← count.mapError graphFailure
      return pageOf offset citations total) = .ok p) :
    ∃ limit offset, listing limit offset = .ok p.citations := by
  cases hbounds : bounds with
  | error err => rw [hbounds] at h; cases h
  | ok b =>
    rw [hbounds] at h
    cases hlisting : listing b.1 b.2 with
    | error err =>
      change ((listing b.1 b.2).mapError graphFailure >>= _) = _ at h
      rw [hlisting] at h
      cases h
    | ok es =>
      change ((listing b.1 b.2).mapError graphFailure >>= _) = _ at h
      rw [hlisting] at h
      cases count with
      | error err => cases h
      | ok n =>
        obtain rfl := Except.ok.inj h
        exact ⟨b.1, b.2, hlisting⟩

/-- **A page** shows citations of the graph. -/
theorem Engine.ends_of_page {γ : Type} {e : Engine γ} {ends : γ → List (String × String)}
    (h : e.graph.Shows ends) {uri : String} {page : PageRequest} {st : γ} {p : Page}
    (hp : e.citing uri page st = .ok p ∨ e.references uri page st = .ok p) :
    ∀ c ∈ p.citations, (c.citing, c.cited) ∈ ends st := by
  rcases hp with hp | hp
  · obtain ⟨limit, offset, hlisting⟩ := exists_of_page (e.pageBounds page)
      (e.graph.citing uri · · st) (e.graph.countCiting uri st) hp
    exact h.citing hlisting
  · obtain ⟨limit, offset, hlisting⟩ := exists_of_page (e.pageBounds page)
      (e.graph.references uri · · st) (e.graph.countReferences uri st) hp
    exact h.references hlisting

/-- **The world of citations is closed** after every session, in memory and in the relational graph:
citations join different papers, one for each ordered pair at most, and so do those of every page
that is answered. -/
theorem closedWorld_run (defaultLimit maxLimit : Nat) (session : Session) :
    let m := (inMemory defaultLimit maxLimit).run session .empty
    let r := (relational defaultLimit maxLimit).run session .empty
    (ClosedWorld m.isPaper m.edges.keys ∧
      ∀ uri page p, (inMemory defaultLimit maxLimit).citing uri page m = .ok p ∨
          (inMemory defaultLimit maxLimit).references uri page m = .ok p →
        ∀ c ∈ p.citations, m.isPaper c.citing = true ∧ m.isPaper c.cited = true) ∧
    (ClosedWorld r.papers.contains r.citations.keys ∧
      ∀ uri page p, (relational defaultLimit maxLimit).citing uri page r = .ok p ∨
          (relational defaultLimit maxLimit).references uri page r = .ok p →
        ∀ c ∈ p.citations,
          r.papers.contains c.citing = true ∧ r.papers.contains c.cited = true) := by
  intro m r
  have hm : ClosedWorld m.isPaper m.edges.keys := closedWorld_of_follows (follows_run session)
  have hmirrors : Graph.Mirrors m r := mirrors_run session
  have hr : ClosedWorld r.papers.contains r.citations.keys := by
    rw [hmirrors.citations, Table.keys_mapValues, funext hmirrors.papers]
    exact hm
  refine ⟨⟨hm, fun uri page p hp c hc => ?_⟩, ⟨hr, fun uri page p hp c hc => ?_⟩⟩
  · exact hm.papers _ (Engine.ends_of_page Graph.Memory.shows hp c hc)
  · exact hr.papers _ (Engine.ends_of_page Graph.Relational.shows hp c hc)

/-- Of two citers of a paper the one that is left after the other one's removal is shown. -/
theorem closedWorld_run_removed_citer :
    let session : Session :=
      [(0, .register "a"), (0, .register "b"), (0, .register "c"),
        (1, .submit [⟨"a", "c", true, "s"⟩, ⟨"b", "c", true, "s"⟩, ⟨"b", "d", true, "s"⟩]),
        (2, .remove "a"), (3, .register "a")]
    let r := (relational 50 100).run session .empty
    let p : Page := ⟨[⟨"b", "c", true, "s", 1⟩], 1, false⟩
    (relational 50 100).citing "c" ⟨none, none⟩ r = .ok p ∧
      (∀ c ∈ p.citations, r.papers.contains c.citing = true ∧ r.papers.contains c.cited = true) ∧
      ClosedWorld r.papers.contains r.citations.keys := by
  intro session r p
  have hpage : (relational 50 100).citing "c" ⟨none, none⟩ r = .ok p := by
    unfold p r session
    decide +kernel
  obtain ⟨hworld, hpages⟩ := (closedWorld_run 50 100 session).2
  exact ⟨hpage, hpages "c" ⟨none, none⟩ p (.inl hpage), hworld⟩

end Citations

end PaperIndex
