import Mathlib.Data.List.DropRight
import PaperIndex.Application
import PaperIndex.Proofs.Graph.Mirror
import PaperIndex.Proofs.Sync.Types

/-! # Papers and indexed eprints

Indexing an eprint makes its URI a paper, and deleting the record removes the paper. Indexing
another kind of record does not: a URI stays a paper until it is deleted, whatever it is indexed as
in between. `papers_iff` says for every run when the papers are exactly the eprints of the cache. -/

namespace PaperIndex

open Time (Instant)
open Sync (Write writesTo applyWrites)

theorem RetryPolicy.runFrom_induction {σ α : Type} {timer : Timer} (p : RetryPolicy)
    {attempt : σ → Attempt α × σ} {P : σ → Prop} (hattempt : ∀ st, P st → P (attempt st).2)
    {left start : Nat} {st : σ} (h : P st) : P (p.runFrom timer attempt left start st).2 := by
  induction left generalizing start st with
  | zero => exact hattempt st h
  | succ left ih =>
    unfold runFrom
    simp only
    split
    · exact ih (hattempt st h)
    · exact hattempt st h

namespace Sync

/-- The records that a URI has been indexed with since it was last deleted. -/
def indexedSince (uri : String) (log : List Write) : List Record :=
  ((writesTo uri log).rtakeWhile fun w => w.change ≠ .deleted).filterMap fun w => w.change.indexed?

theorem indexedSince_snoc {uri : String} {log : List Write} {w : Write} :
    indexedSince uri (log ++ [w]) =
      if w.uri = uri then
        if w.change = .deleted then [] else indexedSince uri log ++ w.change.indexed?.toList
      else indexedSince uri log := by
  unfold indexedSince
  rw [writesTo_snoc]
  by_cases hw : w.uri = uri
  · rw [if_pos hw, if_pos hw, List.rtakeWhile_concat]
    by_cases hdeleted : w.change = .deleted
    · simp [hdeleted]
    · rw [if_neg hdeleted, if_pos (by simpa using hdeleted), List.filterMap_append]
      cases hindexed : w.change.indexed? <;> simp [hindexed]
  · rw [if_neg hw, if_neg hw, List.append_nil]

theorem any_isEprint_indexed (log : List Write) (now : Instant) (uri cid endpoint : String)
    (record : Record) (u : String) :
    (indexedSince u (log ++ [⟨now, uri, .indexed cid endpoint record⟩])).any Record.isEprint =
      ((indexedSince u log).any Record.isEprint || u == uri && record.isEprint) := by
  rw [indexedSince_snoc]
  by_cases hu : uri = u
  · simp [hu, Change.indexed?]
  · simp [hu, Ne.symm hu]

theorem any_isEprint_deleted (log : List Write) (now : Instant) (uri u : String) :
    (indexedSince u (log ++ [⟨now, uri, .deleted⟩])).any Record.isEprint =
      (u != uri && (indexedSince u log).any Record.isEprint) := by
  rw [indexedSince_snoc]
  by_cases hu : uri = u
  · simp [hu]
  · simp [hu, Ne.symm hu]

/-- The type of an entry that comes of a log is that of the record that was indexed last, if there
is one since the last deletion. -/
theorem typeName_applyWrites (uri : String) (log : List Write) :
    (applyWrites (fun _ => none) log uri).map (·.typeName) =
      (indexedSince uri log).getLast?.map Record.typeName := by
  induction log using List.reverseRecOn with
  | nil => rfl
  | append_singleton log w ih =>
    rw [applyWrites_snoc, indexedSince_snoc]
    by_cases hw : w.uri = uri
    · rw [if_pos hw, if_pos hw]
      generalize applyWrites (fun _ => none) log uri = slot at ih ⊢
      obtain ⟨now, u, change⟩ := w
      cases change with
      | indexed cid endpoint record => simp [Write.apply, Change.indexed?]
      | refreshed cid record => simpa [Write.apply, Change.indexed?, Function.comp_def] using ih
      | tracked cid endpoint => simpa [Write.apply, Change.indexed?, Function.comp_def] using ih
      | confirmed cid =>
        simpa [Write.apply, Change.indexed?, Function.comp_def,
          apply_ite IndexedRecord.typeName] using ih
      | deleted => rfl
    · rw [if_neg hw, if_neg hw]
      exact ih

end Sync

namespace Application

variable {ρ ω γ : Type}

/-- A call of the index. -/
inductive Request
  | index (uri : String) (hint : Option String)
  | delete (uri : String)
deriving DecidableEq, Repr

/-- The state after a call. -/
def after (a : Application ρ ω γ) (now : Instant) : Request → State ρ ω γ → State ρ ω γ
  | .index uri hint, st => (a.index now uri hint st).2
  | .delete uri, st => (a.delete uri st).2

/-- What a call writes to the cache. -/
def writes (a : Application ρ ω γ) (now : Instant) : Request → State ρ ω γ → List Write
  | .index uri hint, st =>
    let (run, records) := a.retry.run (a.attempt uri hint) st.records
    match run.result with
    | .ok (some fetched) =>
      a.sync.writes now (.index uri fetched.cid fetched.endpoint fetched.value) records
    | _ => []
  | .delete uri, st => a.sync.writes now (.delete uri) st.records

/-- The state after a run of calls, each at its instant. -/
def run (a : Application ρ ω γ) : List (Instant × Request) → State ρ ω γ → State ρ ω γ
  | [], st => st
  | (now, q) :: qs, st => a.run qs (a.after now q st)

/-- What a run writes to the cache. -/
def log (a : Application ρ ω γ) : List (Instant × Request) → State ρ ω γ → List Write
  | [], _ => []
  | (now, q) :: qs, st => a.writes now q st ++ a.log qs (a.after now q st)

theorem cache_retry {a : Application ρ ω γ} (hr : a.sync.repository.Discreet) (uri : String)
    (hint : Option String) (st : Sync.State ρ ω) :
    (a.retry.run (a.attempt uri hint) st).2.cache = st.cache := by
  refine a.retry.runFrom_induction (P := fun st' : Sync.State ρ ω => st'.cache = st.cache)
    (fun st' h => ?_) rfl
  exact (hr uri hint st'.world st'.cache).trans h

section Relational
variable {a : Application Cache.Relational ω Graph.Relational}

/-- What holds of the entries and of the papers after a log. -/
structure Follows (log : List Write) (st : State Cache.Relational ω Graph.Relational) : Prop where
  entries : st.records.cache.entryAt = applyWrites (fun _ => none) log
  papers : ∀ uri, st.graph.papers.contains uri = (Sync.indexedSince uri log).any Record.isEprint

theorem Follows.append {log ws : List Write} {st st' : State Cache.Relational ω Graph.Relational}
    (h : Follows log st)
    (hentries : st'.records.cache.entryAt = applyWrites st.records.cache.entryAt ws)
    (hpapers : ∀ u, st'.graph.papers.contains u =
      (Sync.indexedSince u (log ++ ws)).any Record.isEprint) : Follows (log ++ ws) st' :=
  ⟨by rw [hentries, h.entries, ← Sync.applyWrites_append], hpapers⟩

variable (hcache : a.sync.cache = Cache.Relational.store)
  (hgraph : a.citations.graph = Graph.Relational.store)
include hcache hgraph

omit hcache in
theorem papers_register {uri : String} (huri : Text.isBlankText uri = false) (g : Graph.Relational)
    (u : String) : (a.citations.register uri g).2.papers.contains u =
      (u == uri || g.papers.contains u) := by
  unfold Citations.Engine.register
  rw [huri, if_neg Bool.false_ne_true, hgraph]
  exact g.papers_addPaper uri u

/-- A fetched record is stored, and its URI becomes a paper if it is an eprint. -/
theorem Follows.store {log : List Write} {st : State Cache.Relational ω Graph.Relational}
    (h : Follows log st) {records : Sync.State Cache.Relational ω}
    (hkept : records.cache = st.records.cache) (now : Instant) (uri : String) (f : Fetched) :
    let r := a.sync.index now uri f.cid f.endpoint f.value records
    Follows (log ++ a.sync.writes now (.index uri f.cid f.endpoint f.value) records)
      (match r.1 with
        | .error _ => ⟨r.2, st.graph⟩
        | .ok record =>
          ⟨r.2, if record.isEprint then (a.citations.register uri st.graph).2 else st.graph⟩) := by
  intro r
  have hc : a.sync.cache.Lawful Cache.Relational.entryAt := hcache ▸ Cache.Relational.lawful
  have hentries := Sync.Engine.entryAt_index hc now uri f.cid f.endpoint f.value records
  change r.2.cache.entryAt = _ at hentries
  rw [hkept] at hentries
  refine h.append ?_ fun u => ?_
  · cases hr : r.1 <;> exact hentries
  cases hr : r.1 with
  | error err =>
    rw [Sync.Engine.writes_index_error hr, List.append_nil]
    exact h.papers u
  | ok record =>
    -- What has been stored has the URI of a record, so registering it is not refused.
    obtain ⟨⟨parts, hparts⟩, -⟩ := Sync.Engine.index_eq_ok hr
    have hregister :=
      papers_register hgraph (RecordUri.not_blank_of_parse hparts) st.graph u
    rw [Sync.Engine.writes_index_ok hr, Sync.any_isEprint_indexed, ← h.papers u]
    cases heprint : record.isEprint with
    | true =>
      rw [Bool.and_true, Bool.or_comm]
      simpa only [heprint, if_true] using hregister
    | false =>
      rw [Bool.and_false, Bool.or_false]
      simp only [heprint, if_neg Bool.false_ne_true]

theorem Follows.index (hr : a.sync.repository.Discreet) (now : Instant) (uri : String)
    (hint : Option String) {log : List Write} {st : State Cache.Relational ω Graph.Relational}
    (h : Follows log st) :
    Follows (log ++ a.writes now (.index uri hint) st) (a.index now uri hint st).2 := by
  have hkept := cache_retry hr uri hint st.records
  rw [writes]
  unfold Application.index
  generalize a.retry.run (a.attempt uri hint) st.records = x at hkept ⊢
  obtain ⟨run, records⟩ := x
  have hsame : Follows (log ++ []) { st with records } :=
    h.append (congrArg Cache.Relational.entryAt hkept) (by rw [List.append_nil]; exact h.papers)
  rcases hresult : run.result with err | (_ | fetched)
  · simpa only [hresult] using hsame
  · simpa only [hresult] using hsame
  · have hstore := h.store hcache hgraph hkept now uri fetched
    simp only [hresult] at hstore ⊢
    cases hr : (a.sync.index now uri fetched.cid fetched.endpoint fetched.value records).1 with
    | error err => simpa only [hr] using hstore
    | ok record => cases heprint : record.isEprint <;> simpa [hr, heprint] using hstore

theorem Follows.delete (now : Instant) (uri : String) {log : List Write}
    {st : State Cache.Relational ω Graph.Relational} (h : Follows log st) :
    Follows (log ++ a.writes now (.delete uri) st) (a.delete uri st).2 := by
  have hc : a.sync.cache.Lawful Cache.Relational.entryAt := hcache ▸ Cache.Relational.lawful
  have hentries := Sync.Engine.entryAt_delete hc now uri st.records
  rw [writes]
  unfold Application.delete
  cases hr : (a.sync.delete uri st.records).1 with
  | error err =>
    have hnone : a.sync.writes now (.delete uri) st.records = [] := by
      rw [Sync.Engine.writes, hr]
      rfl
    rw [hnone] at hentries ⊢
    simp only [hr]
    exact h.append hentries (by rw [List.append_nil]; exact h.papers)
  | ok u =>
    have hone : a.sync.writes now (.delete uri) st.records = [⟨now, uri, .deleted⟩] := by
      rw [Sync.Engine.writes, hr]
      rfl
    rw [hone] at hentries ⊢
    simp only [hr]
    refine h.append hentries fun v => ?_
    have hremove : (a.citations.remove uri st.graph).2.papers.contains v =
        (v != uri && st.graph.papers.contains v) := by
      unfold Citations.Engine.remove
      rw [hgraph]
      exact st.graph.papers_removePaper uri v
    rw [Sync.any_isEprint_deleted, ← h.papers v]
    exact hremove

/-- What every call keeps, a run keeps. -/
theorem follows_run (hr : a.sync.repository.Discreet) (session : List (Instant × Request))
    {log : List Write} {st : State Cache.Relational ω Graph.Relational} (h : Follows log st) :
    Follows (log ++ a.log session st) (a.run session st) := by
  induction session generalizing log st with
  | nil => rwa [Application.log, List.append_nil]
  | cons call session ih =>
    obtain ⟨now, q⟩ := call
    rw [Application.log, ← List.append_assoc]
    cases q with
    | index uri hint => exact ih (h.index hcache hgraph hr now uri hint)
    | delete uri => exact ih (h.delete hcache hgraph now uri)

/-- **The papers after a run** of indexing and deleting on an empty database, over any repository
that leaves the cache alone and whatever it answers: a URI is a paper if it has been indexed as an
eprint since it was last deleted, and its entry has the type that it was last indexed with. So the
papers agree with the indexed eprints at a URI exactly when one that has been indexed as an eprint
was so the last time. -/
theorem papers_iff (hr : a.sync.repository.Discreet) (world : ω)
    (session : List (Instant × Request)) (uri : String) :
    let st := a.run session ⟨⟨.empty, world⟩, .empty⟩
    let records := Sync.indexedSince uri (a.log session ⟨⟨.empty, world⟩, .empty⟩)
    let isPaper := a.citations.graph.isPaper uri st.graph = .ok true
    let isEprint := ∃ entry, st.records.cache.entryAt uri = some entry ∧
      entry.typeName = RecordKind.eprint.name
    (isPaper ↔ ∃ r ∈ records, r.isEprint = true) ∧
      (isEprint ↔ ∃ r, records.getLast? = some r ∧ r.isEprint = true) ∧
      ((isPaper ↔ isEprint) ↔
        ((∃ r ∈ records, r.isEprint = true) →
          ∃ r, records.getLast? = some r ∧ r.isEprint = true)) := by
  intro st records isPaper isEprint
  have hstart : Follows [] (⟨⟨.empty, world⟩, .empty⟩ : State _ ω _) := ⟨rfl, fun _ => rfl⟩
  have hrun := follows_run hcache hgraph hr session hstart
  rw [List.nil_append] at hrun
  have hpaper : isPaper ↔ ∃ r ∈ records, r.isEprint = true := by
    rw [← List.any_eq_true, ← hrun.papers uri]
    unfold isPaper
    rw [hgraph]
    exact Iff.intro Except.ok.inj (congrArg Except.ok)
  have heprint : isEprint ↔ ∃ r, records.getLast? = some r ∧ r.isEprint = true := by
    have htype : (st.records.cache.entryAt uri).map (·.typeName) =
        records.getLast?.map Record.typeName := by
      rw [hrun.entries]
      exact Sync.typeName_applyWrites uri _
    unfold isEprint
    simp only [Record.isEprint_iff_typeName]
    rw [← Option.map_eq_some_iff, ← Option.map_eq_some_iff, htype]
  refine ⟨hpaper, heprint, ?_⟩
  rw [hpaper, heprint]
  -- The record indexed last is one of them, so an eprint of the cache is always a paper.
  refine ⟨Iff.mp, fun h => ⟨h, ?_⟩⟩
  rintro ⟨r, hlast, hr⟩
  exact ⟨r, List.mem_of_getLast? hlast, hr⟩

end Relational

/-- The index on an empty database, with a repository that gives its answers in turn. -/
def fresh : Application Cache.Relational (List (Except FetchError (Option Fetched)))
    Graph.Relational :=
  ⟨.withUsualLimit Cache.Relational.store .inTurn, .withUsualLimits Graph.Relational.store,
    ⟨3, 1, 2, 30⟩⟩

/-- A URI that held a review and holds an eprint when it is indexed again is a paper. -/
theorem papers_review_first :
    let answers := [.ok (some ⟨"at://a/c/r", "c1", Sync.reviewValue, "p"⟩),
      .error (.stated "down"), .ok (some ⟨"at://a/c/r", "c2", Sync.eprintValue, "p"⟩)]
    let session : List (Instant × Request) :=
      [(0, .index "at://a/c/r" none), (1, .index "at://a/c/r" none)]
    let st := fresh.run session ⟨⟨.empty, answers⟩, .empty⟩
    fresh.sync.cache = Cache.Relational.store ∧
      fresh.citations.graph = Graph.Relational.store ∧ fresh.sync.repository.Discreet ∧
      fresh.citations.graph.isPaper "at://a/c/r" st.graph = .ok true := by
  intro answers session st
  have hr : fresh.sync.repository.Discreet := fun _ _ _ _ => rfl
  refine ⟨rfl, rfl, hr, (papers_iff (a := fresh) rfl rfl hr answers session "at://a/c/r").1.2 ?_⟩
  unfold answers session
  decide +kernel

/-- An eprint that is indexed again as a review stays a paper. -/
theorem paper_reindexed_as_review :
    let answers := [.ok (some ⟨"at://a/c/r", "c1", Sync.eprintValue, "p"⟩),
      .ok (some ⟨"at://a/c/r", "c2", Sync.reviewValue, "p"⟩)]
    let session : List (Instant × Request) :=
      [(0, .index "at://a/c/r" none), (1, .index "at://a/c/r" none)]
    let st := fresh.run session ⟨⟨.empty, answers⟩, .empty⟩
    fresh.sync.repository.Discreet ∧
      fresh.citations.graph.isPaper "at://a/c/r" st.graph = .ok true ∧
      (st.records.cache.entryAt "at://a/c/r").map (·.typeName) =
        some "pub.chive.review.comment" := by
  intro answers session st
  refine ⟨fun _ _ _ _ => rfl, ?_, ?_⟩
  · unfold st answers session
    decide +kernel
  · unfold st answers session
    decide +kernel

end Application

end PaperIndex
