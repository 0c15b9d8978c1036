import PaperIndex.Proofs.Citations.ClosedWorld

/-! # The co-citations of a session

The co-citations of a paper are all other papers that share at least so many citers with it, each of
them once and with the number of the papers that cite both, in rank order (`CountsCiters`). A citer
is counted once because there is one citation for each ordered pair of papers, and every citer is a
paper because the world of citations is closed. `coCited_countsCiters` says this for both graphs
after every session. -/

namespace PaperIndex

namespace Graph

/-- **How many of the papers cite both** `b` and `c`. -/
def citersAmong (papers : List String) (cites : String × String → Bool) (b c : String) : Nat :=
  papers.countP fun a => cites (a, b) && cites (a, c)

theorem citersAmong_comm (papers : List String) (cites : String × String → Bool) (b c : String) :
    citersAmong papers cites b c = citersAmong papers cites c b :=
  List.countP_congr fun a _ => by rw [Bool.and_comm]

/-- **The shared citers** are papers, so they may be counted among the papers. -/
theorem Memory.citersAmong_eq {m : Memory} {papers : List String} (hnodup : papers.Nodup)
    (hpapers : ∀ key, m.edges.contains key = true → key.1 ∈ papers) (b c : String) :
    citersAmong papers m.edges.contains b c = m.sharedCiters b c := by
  rw [citersAmong, List.countP_eq_length_filter, ← m.length_citersOfBoth]
  refine ((List.perm_ext_iff_of_nodup (hnodup.filter _)
    (m.nodup_citersOfBoth b c)).2 fun a => ?_).length_eq
  rw [List.mem_filter, Memory.mem_citersOfBoth, Bool.and_eq_true_iff]
  exact and_iff_right_of_imp fun hboth => hpapers (a, b) hboth.1

/-- **Listed co-citations count citers**: `citers b c` is how many papers cite both, and
`listed b least` are the co-citations of `b` with at least `least` of them. -/
structure CountsCiters (citers : String → String → Nat)
    (listed : String → Nat → List CoCitation) : Prop where
  mem_iff : ∀ b c n {least}, 1 ≤ least →
    (⟨c, n⟩ ∈ listed b least ↔ c ≠ b ∧ n = citers b c ∧ least ≤ n)
  once : ∀ b least, ((listed b least).map CoCitation.uri).Nodup
  ordered : ∀ b least, (listed b least).Pairwise RankedBefore
  symmetric : ∀ b c n {least}, 1 ≤ least → (⟨c, n⟩ ∈ listed b least ↔ ⟨b, n⟩ ∈ listed c least)
  apart : ∀ b n {least}, 1 ≤ least → ⟨b, n⟩ ∉ listed b least
  filtered : ∀ b {least least'}, least ≤ least' →
    listed b least' = (listed b least).filter (least' ≤ ·.count)

/-- **The ranked walks** count the shared citers. -/
theorem Memory.countsCiters_walk {m : Memory} (hsize : m.edges.size ≤ maxLimit)
    {papers : List String} (hnodup : papers.Nodup)
    (hpapers : ∀ key, m.edges.contains key = true → key.1 ∈ papers) :
    CountsCiters (citersAmong papers m.edges.contains) fun b least =>
      rank (m.walk b).rows least := by
  have hmem : ∀ b c n {least}, 1 ≤ least → (⟨c, n⟩ ∈ rank (m.walk b).rows least ↔
      c ≠ b ∧ n = citersAmong papers m.edges.contains b c ∧ least ≤ n) := by
    intro b c n least hleast
    rw [mem_rank, mem_walk_rows hsize, Memory.citersAmong_eq hnodup hpapers]
    constructor
    · rintro ⟨⟨hc, hn, -⟩, hreaches⟩
      exact ⟨hc, hn, hreaches⟩
    · rintro ⟨hc, hn, hreaches⟩
      exact ⟨⟨hc, hn, hleast.trans hreaches⟩, hreaches⟩
  refine ⟨hmem, fun b => nodup_uris_rank (m.walk b).nodup, fun b => pairwise_rank (m.walk b).nodup,
    fun b c n least hleast => ?_, fun b n least hleast h => ?_,
    fun b _ _ hle => (filter_rank _ hle).symm⟩
  · rw [hmem b c n hleast, hmem c b n hleast, citersAmong_comm, ne_comm]
  · exact ((hmem b b n hleast).1 h).1 rfl

end Graph

namespace Citations

open PaperIndex.Graph (CountsCiters citersAmong)

theorem coCited_of_pos {γ : Type} {e : Engine γ} {uri : String} {least : Nat} (h : 1 ≤ least)
    (st : γ) : e.coCited uri least st = (e.graph.coCited uri least st).mapError graphFailure :=
  if_neg (Nat.one_le_iff_ne_zero.1 h)

/-- **Co-citations count the papers that cite both**, in memory and in the relational graph. After
every session with fewer than `2 ^ 32` citations both answer the same lists, whatever is asked with
a threshold of at least one: all other papers that share so many citers with a URI, each once, with
the number of the papers that cite both, in strict rank order. So the lists are symmetric, a URI is
never in its own list, and a greater threshold leaves out those that do not reach it. -/
theorem coCited_countsCiters (defaultLimit maxLimit : Nat) (session : Session)
    (hsize : ((inMemory defaultLimit maxLimit).run session .empty).edges.size < 2 ^ 32) :
    let m := (inMemory defaultLimit maxLimit).run session .empty
    let r := (relational defaultLimit maxLimit).run session .empty
    ∃ listed : String → Nat → List CoCitation,
      (∀ b least, 1 ≤ least →
        (inMemory defaultLimit maxLimit).coCited b least m = .ok (listed b least) ∧
        (relational defaultLimit maxLimit).coCited b least r = .ok (listed b least)) ∧
      CountsCiters (citersAmong m.papers.keys m.edges.contains) listed ∧
      CountsCiters (citersAmong r.papers.keys r.citations.contains) listed := by
  intro m r
  have hlimit : m.edges.size ≤ Graph.maxLimit := Nat.le_of_lt_succ hsize
  have hmirrors : Graph.Mirrors m r := mirrors_run session
  have hworld : Graph.ClosedWorld m.isPaper m.edges.keys :=
    closedWorld_of_follows (follows_run session)
  -- The citer of a citation is among the papers of both graphs.
  have hpaper : ∀ key, m.edges.contains key = true → m.isPaper key.1 = true :=
    fun key hkey => (hworld.papers key (Table.contains_iff.1 hkey)).1
  have hmemory : ∀ key, m.edges.contains key = true → key.1 ∈ m.papers.keys := by
    intro key hkey
    rw [← Table.contains_iff, ← Table.isSome_find?]
    exact hpaper key hkey
  have hrelational : ∀ key, m.edges.contains key = true → key.1 ∈ r.papers.keys := by
    intro key hkey
    rw [← Table.contains_iff, hmirrors.papers]
    exact hpaper key hkey
  refine ⟨_, fun b least hleast => ⟨coCited_of_pos hleast m, ?_⟩,
    Graph.Memory.countsCiters_walk hlimit m.papers.nodup hmemory, ?_⟩
  · exact (coCited_relational hmirrors hlimit b least).trans (coCited_of_pos hleast m)
  · rw [hmirrors.contains]
    exact Graph.Memory.countsCiters_walk hlimit r.papers.nodup hrelational

/-- Two papers share two citers, and a third one shares one of them with both. -/
theorem coCited_countsCiters_two_shared :
    let session : Session :=
      [(0, .register "a"), (0, .register "b"), (0, .register "c"), (0, .register "d"),
        (0, .register "e"), (1, .submit [⟨"a", "c", true, "s"⟩, ⟨"a", "d", true, "s"⟩]),
        (2, .submit [⟨"b", "d", false, "s"⟩, ⟨"b", "c", false, "s"⟩, ⟨"b", "e", false, "s"⟩,
          ⟨"b", "c", true, "t"⟩, ⟨"b", "f", true, "t"⟩])]
    let r := (relational 50 100).run session .empty
    ((inMemory 50 100).run session .empty).edges.size < 2 ^ 32 ∧
      ∃ one two, (relational 50 100).coCited "c" 1 r = .ok one ∧
        (relational 50 100).coCited "c" 2 r = .ok two ∧ two = one.filter (2 ≤ ·.count) ∧
        ⟨"d", 2⟩ ∈ two ∧ ⟨"e", 1⟩ ∈ one ∧ one.Pairwise Graph.RankedBefore := by
  intro session r
  have hsize : ((inMemory 50 100).run session .empty).edges.size < 2 ^ 32 := by
    unfold session
    decide +kernel
  obtain ⟨listed, hanswers, -, hlisted⟩ := coCited_countsCiters 50 100 session hsize
  have hcounts : citersAmong r.papers.keys r.citations.contains "c" "d" = 2 ∧
      citersAmong r.papers.keys r.citations.contains "c" "e" = 1 := by
    unfold r session
    decide +kernel
  refine ⟨hsize, listed "c" 1, listed "c" 2, (hanswers "c" 1 le_rfl).2,
    (hanswers "c" 2 (by decide)).2, hlisted.filtered "c" (by decide), ?_, ?_, hlisted.ordered "c" 1⟩
  · exact (hlisted.mem_iff "c" "d" 2 (by decide)).2 ⟨by decide, hcounts.1.symm, le_rfl⟩
  · exact (hlisted.mem_iff "c" "e" 1 le_rfl).2 ⟨by decide, hcounts.2.symm, le_rfl⟩

end Citations

end PaperIndex
