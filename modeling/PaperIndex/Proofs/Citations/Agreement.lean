import PaperIndex.Proofs.Citations.History
import PaperIndex.Proofs.Graph.CoCitation

/-! # The engine over either graph

Over the relational graph the engine answers every session as it does over the graph in memory. The
graphs mirror each other all along (`mirrors_run`), whatever the clock reads. Listings agree as long
as all discoveries have dates, and co-citations as long as a listing without limit is complete. -/

namespace PaperIndex.Citations

open Time (Instant)
open PaperIndex.Graph (Memory Mirrors Relational)

/-- The engine over the relational graph. -/
def relational (defaultLimit maxLimit : Nat) : Engine Relational :=
  ⟨Relational.store, defaultLimit, maxLimit⟩

variable {defaultLimit maxLimit : Nat} {m : Memory} {r : Relational}

/-! ### One request -/

/-- A batch has the same outcome over both graphs. -/
theorem submit_relational (h : Mirrors m r) (now : Instant) (cs : List Citation) :
    ((relational defaultLimit maxLimit).submit now cs r).1 =
        ((inMemory defaultLimit maxLimit).submit now cs m).1 ∧
      Mirrors ((inMemory defaultLimit maxLimit).submit now cs m).2
        ((relational defaultLimit maxLimit).submit now cs r).2 := by
  obtain ⟨hcount, hmerge⟩ := h.merge ⟨now, cs.filter isSubmittable⟩
  by_cases hkept : (cs.filter isSubmittable).isEmpty = true
  · rw [Engine.submit_of_isEmpty hkept, Engine.submit_of_isEmpty hkept]
    exact ⟨rfl, h⟩
  · rw [Memory.merge_eq] at hcount hmerge
    rw [Engine.submit_of_merge hkept (Prod.ext hcount rfl),
      Engine.submit_of_merge hkept (Memory.merge_eq m _)]
    exact ⟨rfl, hmerge⟩

/-- A page of the citations of a paper is the same over both graphs. -/
theorem citing_relational (h : Mirrors m r) (hdated : m.Dated) (uri : String) (page : PageRequest) :
    (relational defaultLimit maxLimit).citing uri page r =
      (inMemory defaultLimit maxLimit).citing uri page m := by
  unfold Engine.citing
  simp only [relational, inMemory, h.citing hdated, h.countCiting]
  rfl

/-- A page of the citations that a paper makes is the same over both graphs. -/
theorem references_relational (h : Mirrors m r) (hdated : m.Dated) (uri : String)
    (page : PageRequest) :
    (relational defaultLimit maxLimit).references uri page r =
      (inMemory defaultLimit maxLimit).references uri page m := by
  unfold Engine.references
  simp only [relational, inMemory, h.references hdated, h.countReferences]
  rfl

/-- The co-citations are the same over both graphs. -/
theorem coCited_relational (h : Mirrors m r) (hsize : m.edges.size ≤ Graph.maxLimit) (uri : String)
    (threshold : Nat) :
    (relational defaultLimit maxLimit).coCited uri threshold r =
      (inMemory defaultLimit maxLimit).coCited uri threshold m := by
  unfold Engine.coCited
  simp only [relational, inMemory, Relational.coCited_eq h hsize]

theorem fst_serve_relational (h : Mirrors m r) (hdated : m.Dated)
    (hsize : m.edges.size ≤ Graph.maxLimit) (now : Instant) (q : Request) :
    ((relational defaultLimit maxLimit).serve now q r).1 =
      ((inMemory defaultLimit maxLimit).serve now q m).1 := by
  cases q with
  | register uri =>
    change (Engine.register _ uri r).1.map _ = (Engine.register _ uri m).1.map _
    rw [Engine.register, Engine.register]
    by_cases hblank : Text.isBlankText uri = true
    · rw [if_pos hblank, if_pos hblank]
    · rw [if_neg hblank, if_neg hblank]
      rfl
  | remove uri =>
    exact congrArg (fun x : Except StoreError Bool => (x.mapError graphFailure).map Reply.removed)
      (h.fst_removePaper uri)
  | submit cs =>
    exact congrArg (Except.map Reply.outcome) (submit_relational h now cs).1
  | citing uri page =>
    exact congrArg (Except.map Reply.page) (citing_relational h hdated uri page)
  | references uri page =>
    exact congrArg (Except.map Reply.page) (references_relational h hdated uri page)
  | coCited uri threshold =>
    exact congrArg (Except.map Reply.coCited) (coCited_relational h hsize uri threshold)
  | deleteFor uri =>
    exact congrArg (fun x : Except StoreError Nat => (x.mapError graphFailure).map Reply.deleted)
      (h.fst_deleteFor uri)

theorem mirrors_serve (h : Mirrors m r) (now : Instant) (q : Request) :
    Mirrors ((inMemory defaultLimit maxLimit).serve now q m).2
      ((relational defaultLimit maxLimit).serve now q r).2 := by
  cases q with
  | register uri =>
    change Mirrors (Engine.register _ uri m).2 (Engine.register _ uri r).2
    rw [Engine.register, Engine.register]
    by_cases hblank : Text.isBlankText uri = true
    · rwa [if_pos hblank, if_pos hblank]
    · rw [if_neg hblank, if_neg hblank]
      exact h.addPaper uri
  | remove uri => exact h.removePaper uri
  | submit cs => exact (submit_relational h now cs).2
  | citing uri page => exact h
  | references uri page => exact h
  | coCited uri threshold => exact h
  | deleteFor uri => exact h.deleteFor uri

/-! ### Sessions -/

/-- **The graphs mirror each other** after every session. -/
theorem mirrors_run (session : Session) :
    Mirrors ((inMemory defaultLimit maxLimit).run session .empty)
      ((relational defaultLimit maxLimit).run session .empty) := by
  induction session using List.reverseRecOn with
  | nil => exact .empty
  | append_singleton session call ih =>
    rw [Engine.run_append, Engine.run_append]
    exact mirrors_serve ih call.1 call.2

/-- **Discoveries have dates** if the instants of the session have: each citation has the instant of
its first acceptance. -/
theorem dated_run {session : Session} (h : ∀ call ∈ session, Time.hasDate call.1 = true) :
    ((inMemory defaultLimit maxLimit).run session .empty).Dated := by
  intro x hx
  have hfind := Table.find?_eq_some_iff.2 hx
  rw [(follows_run session).edges] at hfind
  obtain ⟨first, hfirst, hlast⟩ := Option.bind_eq_some_iff.1 hfind
  obtain ⟨last, -, hattributes⟩ := Option.map_eq_some_iff.1 hlast
  obtain ⟨before, q, after, rfl, -⟩ := mem_accepted_iff.1 (List.mem_of_head? hfirst)
  rw [← hattributes]
  exact h _ (List.mem_append_cons_self)

/-- **The engine answers alike over both graphs**, whatever is asked of it, as long as the clock
reads instants that have dates and there are fewer citations than a listing can have. -/
theorem replies_relational (defaultLimit maxLimit : Nat) (session : Session)
    (hclock : ∀ call ∈ session, Time.hasDate call.1 = true)
    (hsize : ∀ i < session.length,
      ((inMemory defaultLimit maxLimit).run (session.take i) .empty).edges.size < 2 ^ 32) :
    (relational defaultLimit maxLimit).replies session .empty =
      (inMemory defaultLimit maxLimit).replies session .empty := by
  induction session using List.reverseRecOn with
  | nil => rfl
  | append_singleton session call ih =>
    have hclock' : ∀ call ∈ session, Time.hasDate call.1 = true :=
      fun call hcall => hclock call (List.mem_append_left _ hcall)
    have hsize' : ∀ i ≤ session.length,
        ((inMemory defaultLimit maxLimit).run (session.take i) .empty).edges.size < 2 ^ 32 := by
      intro i hi
      rw [← List.take_append_of_le_length hi]
      exact hsize i (by simpa using Nat.lt_succ_of_le hi)
    -- The last request finds the graphs that the session before it has left.
    have hlast := hsize' session.length le_rfl
    rw [List.take_length] at hlast
    rw [Engine.replies_append, Engine.replies_append, ih hclock' fun i hi => hsize' i hi.le]
    have hsize : _ ≤ Graph.maxLimit := Nat.le_of_lt_succ hlast
    exact congrArg (_ ++ [·])
      (fst_serve_relational (mirrors_run session) (dated_run hclock') hsize _ _)

/-- Papers with two shared citers, before and after one of the citers is removed. -/
theorem replies_relational_shared_citers :
    let session : Session :=
      [(0, .register "a"), (0, .register "b"), (0, .register "c"), (0, .register "d"),
        (1, .submit [⟨"a", "c", true, "s"⟩, ⟨"a", "d", true, "s"⟩, ⟨"a", "a", true, "s"⟩]),
        (2, .submit [⟨"b", "c", false, "s"⟩, ⟨"b", "d", false, "s"⟩, ⟨"b", "e", false, "s"⟩]),
        (3, .citing "c" ⟨some 1, none⟩), (3, .references "a" ⟨none, some 1⟩), (3, .coCited "c" 2),
        (4, .remove "a"), (5, .coCited "c" 1), (5, .deleteFor "c"), (6, .citing "d" ⟨some 0, none⟩)]
    (∀ call ∈ session, Time.hasDate call.1 = true) ∧
      (∀ i < session.length, ((inMemory 50 100).run (session.take i) .empty).edges.size < 2 ^ 32) ∧
      (relational 50 100).replies session .empty = (inMemory 50 100).replies session .empty := by
  intro session
  have hclock : ∀ call ∈ session, Time.hasDate call.1 = true := by
    unfold session
    decide +kernel
  have hsize : ∀ i < session.length,
      ((inMemory 50 100).run (session.take i) .empty).edges.size < 2 ^ 32 := by
    unfold session
    decide +kernel
  exact ⟨hclock, hsize, replies_relational 50 100 session hclock hsize⟩

end PaperIndex.Citations
