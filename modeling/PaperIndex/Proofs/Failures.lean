import Mathlib.Data.List.Basic
import PaperIndex.Proofs.Citations.Session
import PaperIndex.Proofs.Metrics.Session
import PaperIndex.Proofs.Sync.Session

/-! # Operations that fail

The three engines beside each other, each over its own store. An operation of one of them that fails
leaves everything that is stored as it was (`state_of_serve_error`). Only what the repository does to
the records during the fetch of a refresh stays, since that is not the engine's to undo. -/

namespace PaperIndex

open Time (Instant)

/-- The engines for records, for counts and for citations. -/
structure Engines (ρ ω σ ς γ : Type) where
  sync : Sync.Engine ρ ω
  metrics : Metrics.Engine σ ς
  citations : Citations.Engine γ

namespace Engines

/-- What the engines store: records and servers, counters and summaries, and the graph. -/
structure State (ρ ω σ ς γ : Type) where
  records : Sync.State ρ ω
  metrics : Metrics.State σ ς
  graph : γ

/-- An operation of one of the engines. -/
inductive Request
  | sync (q : Sync.Request)
  | metrics (q : Metrics.Request)
  | citations (q : Citations.Request)

/-- What an operation returns. -/
inductive Reply
  | sync (r : Sync.Reply)
  | metrics (r : Metrics.Reply)
  | citations (r : Citations.Reply)
deriving DecidableEq, Repr

variable {ρ ω σ ς γ : Type}

/-- Serves a request at an instant. -/
def serve (x : Engines ρ ω σ ς γ) (now : Instant) : Request → State ρ ω σ ς γ →
    Except Sync.ScanStop Reply × State ρ ω σ ς γ
  | .sync q, st =>
    ((x.sync.serve now q st.records).1.map .sync,
      { st with records := (x.sync.serve now q st.records).2 })
  | .metrics q, st =>
    (((x.metrics.serve now q st.metrics).1.mapError .failed).map .metrics,
      { st with metrics := (x.metrics.serve now q st.metrics).2 })
  | .citations q, st =>
    (((x.citations.serve now q st.graph).1.mapError .failed).map .citations,
      { st with graph := (x.citations.serve now q st.graph).2 })

/-- An operation that fails over atomic stores. -/
theorem state_of_serve_error_of_atomic {x : Engines ρ ω σ ς γ} (hcache : x.sync.cache.Atomic)
    (hcounters : x.metrics.counters.Atomic) (hgraph : x.citations.graph.Atomic) {now : Instant}
    {q : Request} {st : State ρ ω σ ς γ} {stop : Sync.ScanStop}
    (h : (x.serve now q st).1 = .error stop) :
    (x.serve now q st).2 = st ∨
      ∃ uri entry, q = .sync (.refresh uri) ∧
        x.sync.cache.get uri st.records.cache = .ok (some entry) ∧
        (x.serve now q st).2 = { st with records := (x.sync.fetched uri entry st.records).2 } := by
  cases q with
  | sync q =>
    have hst : (x.serve now (.sync q) st).2 =
      { st with records := (x.sync.serve now q st.records).2 } := rfl
    have herr : (x.sync.serve now q st.records).1 = .error stop := map_eq_error_iff.1 h
    rcases Sync.Engine.serve_error hcache herr with hsame | ⟨uri, entry, rfl, hget, hfetch⟩
    · left
      rw [hst, hsame]
    · right
      exact ⟨uri, entry, rfl, hget, by rw [hst, hfetch]⟩
  | metrics q =>
    have hst : (x.serve now (.metrics q) st).2 =
      { st with metrics := (x.metrics.serve now q st.metrics).2 } := rfl
    obtain ⟨err, herr, -⟩ := mapError_eq_error_iff.1 (map_eq_error_iff.1 h)
    left
    rw [hst, Metrics.Engine.serve_error hcounters herr]
  | citations q =>
    have hst : (x.serve now (.citations q) st).2 =
      { st with graph := (x.citations.serve now q st.graph).2 } := rfl
    obtain ⟨err, herr, -⟩ := mapError_eq_error_iff.1 (map_eq_error_iff.1 h)
    left
    rw [hst, Citations.Engine.serve_error hgraph herr]

/-- **An operation that fails** over the stores in memory changes nothing that is stored, whatever
calls of the stores have been made to fail; only what the repository has changed during the fetch of
a refresh stays. -/
theorem state_of_serve_error {x : Engines Cache.Memory ω Counter.Memory ς Graph.Memory}
    {cacheCalls : List Cache.Call} {counterCalls : List Counter.Call} {graphCalls : List Graph.Call}
    (hcache : x.sync.cache = Cache.Memory.store.failing cacheCalls)
    (hcounters : x.metrics.counters = Counter.Memory.store.failing counterCalls)
    (hgraph : x.citations.graph = Graph.Memory.store.failing graphCalls) {now : Instant}
    {q : Request} {st : State Cache.Memory ω Counter.Memory ς Graph.Memory} {stop : Sync.ScanStop}
    (h : (x.serve now q st).1 = .error stop) :
    (x.serve now q st).2 = st ∨
      ∃ uri hint answer world cache, q = .sync (.refresh uri) ∧
        x.sync.repository.fetch uri hint st.records.world st.records.cache =
          (answer, world, cache) ∧
        (x.serve now q st).2 = { st with records := ⟨cache, world⟩ } := by
  have hatomic := state_of_serve_error_of_atomic (hcache ▸ Cache.Memory.atomic.failing cacheCalls)
    (hcounters ▸ Counter.Memory.atomic.failing counterCalls)
    (hgraph ▸ Graph.Memory.atomic.failing graphCalls) h
  rcases hatomic with hsame | ⟨uri, entry, rfl, -, hfetch⟩
  · exact .inl hsame
  · exact .inr ⟨uri, Sync.hintOf entry.endpoint, _, _, _, rfl, rfl, hfetch⟩

/-- A batch whose fourth operation meets a tally where a window should be: the download before it is
not recorded either. -/
theorem state_of_wrong_kind :
    let x : Engines Cache.Memory Unit Counter.Memory Unit Graph.Memory :=
      ⟨.withUsualLimit (Cache.Memory.store.failing [])
          { fetch := fun _ _ world cache => (.ok none, world, cache) },
        .withUsualLimit (Counter.Memory.store.failing []) none,
        .withUsualLimits (Graph.Memory.store.failing [])⟩
    let st : State Cache.Memory Unit Counter.Memory Unit Graph.Memory :=
      ⟨⟨.empty, ()⟩, (x.metrics.record 0 [.view "24h:x" none] ⟨.empty, (), 0⟩).2, .empty⟩
    let q : Request := .metrics (.record [.download "x" none, .view "x" none])
    (x.serve 0 q st).1 =
        .error (.failed (.transient (.store (.wrongKind "views:24h:x" .tally .scores)))) ∧
      (x.serve 0 q st).2 = st := by
  intro x st q
  have herr : (x.serve 0 q st).1 =
      .error (.failed (.transient (.store (.wrongKind "views:24h:x" .tally .scores)))) := by
    unfold x st q
    decide +kernel
  refine ⟨herr, ?_⟩
  rcases state_of_serve_error (x := x) rfl rfl rfl herr with
    hsame | ⟨uri, hint, answer, world, cache, hq, -⟩
  · exact hsame
  · exact absurd hq nofun

end Engines

end PaperIndex
