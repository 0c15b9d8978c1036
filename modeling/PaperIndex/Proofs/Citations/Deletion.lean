import PaperIndex.Proofs.Citations.ClosedWorld
import PaperIndex.Proofs.Citations.Pages

/-! # What a deletion takes away

Deleting the citations at a URI takes away those and nothing else (`DeletesAt`): it reports as many
as the two listings of the URI had, any other paper loses the one citation from the URI and the one
to it if they were there, and the rest is as before. The sum is right because no citation has the
URI at both ends, which the graph itself does not prevent: it is the world of citations that is
closed. `deletions_exact` says this for both graphs after every session. -/

namespace PaperIndex

namespace Graph

theorem countP_or_of_disjoint {α : Type} {p q : α → Bool} {xs : List α}
    (h : ∀ x ∈ xs, ¬(p x = true ∧ q x = true)) :
    xs.countP (fun x => p x || q x) = xs.countP p + xs.countP q := by
  rw [List.countP_eq_countP_filter_add xs _ p, List.countP_filter, List.countP_filter]
  congr 1
  · exact List.countP_congr fun x _ => by cases p x <;> simp
  · refine List.countP_congr fun x hx => ?_
    have hdisjoint := h x hx
    cases hp : p x <;> simp_all

namespace Memory

variable {m : Memory} {u v : String}

/-- The graph without the citations at a URI. -/
def cut (m : Memory) (u : String) : Memory := { m with edges := m.without u }

theorem countP_cut (m : Memory) (u : String) (p : String × String → Bool) :
    (m.cut u).edges.rows.countP (fun x => p x.1) =
      m.edges.rows.countP fun x => p x.1 && (x.1.1 != u && x.1.2 != u) := by
  change (m.without u).rows.countP _ = _
  rw [without, Table.rows_filter, List.countP_filter]

/-- **A count of citations** of which one lies at `u` loses this one. -/
theorem countP_eq_cut_add {p : String × String → Bool} {key : String × String}
    (hp : ∀ k, p k = true → ((k.1 = u ∨ k.2 = u) ↔ k = key)) (hkey : p key = true) :
    m.edges.rows.countP (fun x => p x.1) = (m.cut u).edges.rows.countP (fun x => p x.1) +
      if m.edges.contains key then 1 else 0 := by
  rw [List.countP_eq_countP_filter_add _ _ fun x => x.1.1 != u && x.1.2 != u, List.countP_filter,
    List.countP_filter, ← countP_cut, ← count_keys, Table.keys, List.count, List.countP_map]
  congr 1
  refine List.countP_congr fun x _ => ?_
  rw [Bool.and_eq_true_iff, Function.comp_apply, beq_iff_eq, Bool.not_eq_true',
    Bool.and_eq_false_iff, bne_eq_false_iff_eq, bne_eq_false_iff_eq]
  constructor
  · rintro ⟨hpass, hends⟩
    exact (hp x.1 hpass).1 hends
  · intro hx
    rw [hx]
    exact ⟨hkey, (hp key hkey).2 rfl⟩

theorem countCiting_eq_cut_add (h : v ≠ u) : m.countCiting v =
    (m.cut u).countCiting v + if m.edges.contains (u, v) then 1 else 0 := by
  refine countP_eq_cut_add (p := fun k => k.2 == v) (fun k hk => ?_) (beq_self_eq_true v)
  obtain rfl := eq_of_beq hk
  simp [Prod.ext_iff, h]

theorem countReferences_eq_cut_add (h : v ≠ u) : m.countReferences v =
    (m.cut u).countReferences v + if m.edges.contains (v, u) then 1 else 0 := by
  refine countP_eq_cut_add (p := fun k => k.1 == v) (fun k hk => ?_) (beq_self_eq_true v)
  obtain rfl := eq_of_beq hk
  simp [Prod.ext_iff, h]

theorem countCiting_cut_self (m : Memory) (u : String) : (m.cut u).countCiting u = 0 := by
  refine (m.countP_cut u (·.2 == u)).trans (List.countP_eq_zero.2 fun x _ => ?_)
  simp +contextual [bne]

theorem countReferences_cut_self (m : Memory) (u : String) : (m.cut u).countReferences u = 0 := by
  refine (m.countP_cut u (·.1 == u)).trans (List.countP_eq_zero.2 fun x _ => ?_)
  simp +contextual [bne]

/-- **What goes with `u`** are its citations and those that it makes, if none is both. -/
theorem size_sub_cut (hdistinct : ∀ x ∈ m.edges.keys, x.1 ≠ x.2) (u : String) :
    m.edges.size - (m.without u).size = m.countCiting u + m.countReferences u := by
  rw [size_sub_without, Nat.add_comm]
  refine countP_or_of_disjoint fun x hx hboth => ?_
  have hends : x.1.1 = x.1.2 := (eq_of_beq hboth.1).trans (eq_of_beq hboth.2).symm
  exact hdistinct x.1 (List.mem_map_of_mem hx) hends

theorem dated_cut (h : m.Dated) (u : String) : (m.cut u).Dated :=
  Table.forall_rows_filter h _

end Memory

end Graph

namespace Citations

open PaperIndex.Graph (ClosedWorld Memory Mirrors Relational)

/-! ### Totals -/

/-- Every page of the two listings of a URI that may be asked for is answered, with these totals. -/
structure Totals {γ : Type} (e : Engine γ) (st : γ) (uri : String) (citing references : Nat) :
    Prop where
  citing : ∀ page bounds, e.pageBounds page = .ok bounds →
    ∃ p, e.citing uri page st = .ok p ∧ p.total = citing
  references : ∀ page bounds, e.pageBounds page = .ok bounds →
    ∃ p, e.references uri page st = .ok p ∧ p.total = references

variable {defaultLimit maxLimit : Nat} {m : Memory} {r : Relational}

theorem totals_inMemory (m : Memory) (uri : String) :
    Totals (inMemory defaultLimit maxLimit) m uri (m.countCiting uri) (m.countReferences uri) :=
  ⟨fun _ _ hbounds => ⟨_, citing_inMemory uri hbounds, m.length_citingEdges uri⟩,
    fun _ _ hbounds => ⟨_, references_inMemory uri hbounds, m.length_referenceEdges uri⟩⟩

theorem Totals.mirrored {uri : String} {n k : Nat}
    (ht : Totals (inMemory defaultLimit maxLimit) m uri n k) (h : Mirrors m r) (hdated : m.Dated) :
    Totals (relational defaultLimit maxLimit) r uri n k where
  citing page bounds hbounds := by
    rw [citing_relational h hdated]
    exact ht.citing page bounds hbounds
  references page bounds hbounds := by
    rw [references_relational h hdated]
    exact ht.references page bounds hbounds

/-! ### Deletions -/

/-- **A deletion at `u` is exact.** Of a state there are the papers and the citations by their
ends. -/
structure DeletesAt {γ δ : Type} (e : Engine γ) (papers : γ → String → Bool)
    (citations : γ → Table (String × String) δ) (u : String) (st : γ) : Prop where
  /-- The deletion reports the sum of what the two listings reported. -/
  counted : ∃ n k, Totals e st u n k ∧ (e.deleteFor u st).1 = .ok (n + k)
  emptied : Totals e (e.deleteFor u st).2 u 0 0
  /-- Another paper loses its citation from `u` and the one to `u`. -/
  others : ∀ v, v ≠ u → ∃ n k, Totals e (e.deleteFor u st).2 v n k ∧
    Totals e st v (n + if (citations st).contains (u, v) then 1 else 0)
      (k + if (citations st).contains (v, u) then 1 else 0)
  kept : ∀ a b, (citations (e.deleteFor u st).2).find? (a, b) =
    if a = u ∨ b = u then none else (citations st).find? (a, b)
  keptPapers : papers (e.deleteFor u st).2 = papers st
  /-- Removing the paper reports whether it was one. -/
  removed : (e.remove u st).1 = .ok (papers st u)
  removedCitations : citations (e.remove u st).2 = citations (e.deleteFor u st).2
  removedPapers : ∀ v, papers (e.remove u st).2 v = (v != u && papers st v)

theorem deletesAt_inMemory (hdistinct : ∀ x ∈ m.edges.keys, x.1 ≠ x.2) (u : String) :
    DeletesAt (inMemory defaultLimit maxLimit) Memory.isPaper Memory.edges u m where
  counted := ⟨_, _, totals_inMemory m u, congrArg Except.ok (Memory.size_sub_cut hdistinct u)⟩
  emptied := by
    have htotals : Totals (inMemory defaultLimit maxLimit) (m.cut u) u _ _ :=
      totals_inMemory (m.cut u) u
    rwa [m.countCiting_cut_self, m.countReferences_cut_self] at htotals
  others v hv := by
    refine ⟨_, _, totals_inMemory (m.cut u) v, ?_⟩
    rw [← Memory.countCiting_eq_cut_add hv, ← Memory.countReferences_eq_cut_add hv]
    exact totals_inMemory m v
  kept a b := by
    refine (m.find?_without u a b).trans ?_
    simp only [Bool.or_eq_true, beq_iff_eq]
  keptPapers := rfl
  removed := rfl
  removedCitations := rfl
  removedPapers := m.isPaper_removePaper u

/-- **A deletion in the relational graph** is exact if it is in the graph that it mirrors. -/
theorem DeletesAt.mirrored {u : String}
    (hd : DeletesAt (inMemory defaultLimit maxLimit) Memory.isPaper Memory.edges u m)
    (h : Mirrors m r) (hdated : m.Dated) :
    DeletesAt (relational defaultLimit maxLimit) (fun r => r.papers.contains) Relational.citations u
      r := by
  have hdeleted : Mirrors ((inMemory defaultLimit maxLimit).deleteFor u m).2
      ((relational defaultLimit maxLimit).deleteFor u r).2 := h.deleteFor u
  have hcut : ((inMemory defaultLimit maxLimit).deleteFor u m).2.Dated := Memory.dated_cut hdated u
  refine ⟨?_, hd.emptied.mirrored hdeleted hcut, fun v hv => ?_, fun a b => ?_, rfl, rfl, rfl,
    r.papers_removePaper u⟩
  · obtain ⟨n, k, htotals, hcount⟩ := hd.counted
    refine ⟨n, k, htotals.mirrored h hdated, Eq.trans ?_ hcount⟩
    exact congrArg (Except.mapError graphFailure) (h.fst_deleteFor u)
  · obtain ⟨n, k, hafter, hbefore⟩ := hd.others v hv
    rw [h.contains]
    exact ⟨n, k, hafter.mirrored hdeleted hcut, hbefore.mirrored h hdated⟩
  · rw [hdeleted.citations, h.citations, Table.find?_mapValues, Table.find?_mapValues, hd.kept,
      apply_ite (Option.map _)]
    rfl

/-- **Deletions are exact** in every session, in memory and in the relational graph: deleting the
citations at a URI reports the sum of the totals of its two listings, leaves none of them, takes
from any other paper exactly its citations from and to the URI, and changes neither the other
citations nor the papers. Removing a paper does the same to the citations, takes away the paper and
no other one, and reports whether it was there. -/
theorem deletions_exact (defaultLimit maxLimit : Nat) (session : Session)
    (hclock : ∀ call ∈ session, Time.hasDate call.1 = true) (u : String) :
    DeletesAt (inMemory defaultLimit maxLimit) Memory.isPaper Memory.edges u
        ((inMemory defaultLimit maxLimit).run session .empty) ∧
      DeletesAt (relational defaultLimit maxLimit) (fun r => r.papers.contains)
        Relational.citations u ((relational defaultLimit maxLimit).run session .empty) := by
  have hworld : ClosedWorld _ ((inMemory defaultLimit maxLimit).run session .empty).edges.keys :=
    closedWorld_of_follows (follows_run session)
  have hmemory : DeletesAt (inMemory defaultLimit maxLimit) Memory.isPaper Memory.edges u
      ((inMemory defaultLimit maxLimit).run session .empty) :=
    deletesAt_inMemory hworld.distinct u
  exact ⟨hmemory, hmemory.mirrored (mirrors_run session) (dated_run hclock)⟩

/-- A paper that cites one and is cited by two others, of which one cites the other as well. -/
theorem deletions_exact_middle :
    let session : Session :=
      [(0, .register "a"), (0, .register "b"), (0, .register "c"), (0, .register "d"),
        (1, .submit [⟨"a", "b", true, "s"⟩, ⟨"d", "b", true, "s"⟩, ⟨"b", "b", true, "s"⟩,
          ⟨"b", "c", false, "s"⟩, ⟨"a", "d", false, "s"⟩])]
    let e := relational 50 100
    let r := e.run session .empty
    (∀ call ∈ session, Time.hasDate call.1 = true) ∧
      DeletesAt e (fun r => r.papers.contains) Relational.citations "b" r ∧
      (e.deleteFor "b" r).1 = .ok 3 ∧
      (e.deleteFor "b" r).2.citations.find? ("a", "d") = some ⟨false, "s", 1⟩ ∧
      ∃ n k, Totals e (e.deleteFor "b" r).2 "c" n k ∧ Totals e r "c" (n + 1) k := by
  intro session e r
  have hclock : ∀ call ∈ session, Time.hasDate call.1 = true := by
    unfold session
    decide +kernel
  have hcount : (e.deleteFor "b" r).1 = .ok 3 := by
    unfold e r session
    decide +kernel
  have hcites : (r.citations.contains ("b", "c") = true ∧ r.citations.contains ("c", "b") = false) ∧
      r.citations.find? ("a", "d") = some ⟨false, "s", 1⟩ := by
    unfold r e session
    decide +kernel
  have hexact := (deletions_exact 50 100 session hclock "b").2
  obtain ⟨n, k, hafter, hbefore⟩ := hexact.others "c" (by decide)
  rw [if_pos hcites.1.1, hcites.1.2] at hbefore
  exact ⟨hclock, hexact, hcount, (hexact.kept "a" "d").trans hcites.2, n, k, hafter, hbefore⟩

end Citations

end PaperIndex
