import PaperIndex.Graph.Memory
import PaperIndex.Proofs.Table

/-! # The calls of the graph in memory

What each call does to the papers and to the citation under a pair of ends: a batch merges those of
its citations whose ends are papers, in turn (`merge_eq`), and merging one touches only the
citation with its ends (`find?_put`). -/

namespace PaperIndex.Graph

open Time (Instant)

/-- The attributes after a citation has been merged with the one that was there. -/
def Attributes.merged (now : Instant) (c : Citation) : Option Attributes → Attributes
  | none => ⟨c.isInfluential, c.source, now⟩
  | some a => { a with isInfluential := c.isInfluential, source := c.source }

namespace Memory

/-- Whether both ends of a citation are papers. -/
def admits (m : Memory) (c : Citation) : Bool := m.isPaper c.citing && m.isPaper c.cited

/-- The citations after merging others in turn. -/
def putAll (edges : Table (String × String) Attributes) (now : Instant) (cs : List Citation) :
    Table (String × String) Attributes :=
  cs.foldl (fun edges c => put edges now c) edges

/-! ### Papers -/

theorem isPaper_addPaper (m : Memory) (uri u : String) :
    (store.addPaper uri m).2.isPaper u = (u == uri || m.isPaper u) := by
  change ((m.papers.insert uri ()).find? u).isSome = _
  rw [Table.find?_insert, isPaper]
  by_cases hu : u = uri <;> simp [hu]

theorem isPaper_removePaper (m : Memory) (uri u : String) :
    (store.removePaper uri m).2.isPaper u = (u != uri && m.isPaper u) := by
  change ((m.papers.erase uri).find? u).isSome = _
  rw [Table.find?_erase, isPaper]
  by_cases hu : u = uri <;> simp [hu]

/-! ### Citations -/

theorem find?_without (m : Memory) (uri a b : String) :
    (m.without uri).find? (a, b) =
      if a == uri || b == uri then none else m.edges.find? (a, b) := by
  unfold without
  rw [Table.find?_filter]
  cases ha : a == uri <;> cases hb : b == uri <;> cases m.edges.find? (a, b) <;>
    simp [Option.filter, bne, ha, hb]

/-- How many citations there are at a URI. -/
theorem size_sub_without (m : Memory) (uri : String) :
    m.edges.size - (m.without uri).size =
      m.edges.rows.countP fun r => r.1.1 == uri || r.1.2 == uri := by
  have hleft : (m.without uri).size =
      m.edges.rows.countP fun r => decide ¬(r.1.1 == uri || r.1.2 == uri) = true := by
    rw [Table.size, without, Table.rows_filter, ← List.countP_eq_length_filter]
    exact List.countP_congr fun r _ => by simp
  rw [hleft, Table.size, List.length_eq_countP_add_countP fun r : (String × String) × Attributes =>
    r.1.1 == uri || r.1.2 == uri]
  exact Nat.add_sub_cancel ..

theorem find?_put (edges : Table (String × String) Attributes) (now : Instant) (c : Citation)
    (key : String × String) :
    (put edges now c).find? key =
      if key = (c.citing, c.cited) then some (Attributes.merged now c (edges.find? key))
      else edges.find? key := by
  unfold put
  simp only
  cases hfind : edges.find? (c.citing, c.cited) with
  | none =>
    rw [if_neg (by simp), Table.find?_insert]
    by_cases hkey : key = (c.citing, c.cited)
    · rw [if_pos hkey, if_pos hkey, hkey, hfind]
      rfl
    · rw [if_neg hkey, if_neg hkey]
  | some a =>
    rw [Option.isSome_some, if_pos rfl, Table.find?_modify]
    by_cases hkey : key = (c.citing, c.cited)
    · rw [if_pos hkey, if_pos hkey, hkey, hfind]
      rfl
    · rw [if_neg hkey, if_neg hkey]

theorem putAll_append (edges : Table (String × String) Attributes) (now : Instant)
    (cs cs' : List Citation) :
    putAll edges now (cs ++ cs') = putAll (putAll edges now cs) now cs' := List.foldl_append

theorem mem_keys_put {edges : Table (String × String) Attributes} {now : Instant} {c : Citation}
    {key : String × String} :
    key ∈ (put edges now c).keys ↔ key = (c.citing, c.cited) ∨ key ∈ edges.keys := by
  rw [Table.mem_keys_iff, Table.mem_keys_iff, find?_put]
  by_cases hkey : key = (c.citing, c.cited) <;> simp [hkey]

theorem mem_keys_putAll {edges : Table (String × String) Attributes} {now : Instant}
    {cs : List Citation} {key : String × String} :
    key ∈ (putAll edges now cs).keys ↔
      (∃ c ∈ cs, key = (c.citing, c.cited)) ∨ key ∈ edges.keys := by
  induction cs generalizing edges with
  | nil => simp [putAll]
  | cons c cs ih =>
    rw [putAll, List.foldl_cons]
    refine ih.trans ?_
    rw [mem_keys_put, List.exists_mem_cons_iff, or_assoc, or_left_comm]

/-- A citation that is there already keeps its place. -/
theorem keys_put {edges : Table (String × String) Attributes} (now : Instant) {c : Citation}
    (h : (c.citing, c.cited) ∈ edges.keys) : (put edges now c).keys = edges.keys := by
  unfold put
  simp only
  rw [if_pos (Option.isSome_iff_ne_none.2 (Table.mem_keys_iff.1 h)), Table.keys_modify]

theorem keys_putAll {edges : Table (String × String) Attributes} (now : Instant)
    {cs : List Citation} (h : ∀ c ∈ cs, (c.citing, c.cited) ∈ edges.keys) :
    (putAll edges now cs).keys = edges.keys := by
  induction cs generalizing edges with
  | nil => rfl
  | cons c cs ih =>
    obtain ⟨hc, hcs⟩ := List.forall_mem_cons.1 h
    have hkeys := keys_put now hc
    rw [putAll, List.foldl_cons]
    exact (ih fun c' hc' => hkeys ▸ hcs c' hc').trans hkeys

theorem mergeAll_eq (m : Memory) (now : Instant) (cs : List Citation) :
    m.mergeAll now cs =
      ((cs.filter m.admits).length,
        { m with edges := putAll m.edges now (cs.filter m.admits) }) := by
  induction cs generalizing m with
  | nil => rfl
  | cons c cs ih =>
    rw [mergeAll]
    change (if m.admits c = true then _ else _) = _
    by_cases hc : m.admits c = true
    · rw [if_pos hc, ih, List.filter_cons_of_pos hc]
      rfl
    · rw [if_neg hc, ih, List.filter_cons_of_neg hc]

/-- **A batch** is merged as far as the ends of its citations are papers. -/
theorem merge_eq (m : Memory) (batch : Batch) :
    store.merge batch m = (.ok (batch.citations.filter m.admits).length,
      { m with edges :=
          putAll m.edges batch.discoveredAt (batch.citations.filter m.admits) }) := by
  change (_, _) = _
  rw [mergeAll_eq]

end Memory

end PaperIndex.Graph
