import PaperIndex.Citations.Engine
import PaperIndex.Retry
import PaperIndex.Sync.Engine

/-! # The index as a whole

Indexing an eprint also makes it a paper of the citation graph, and deleting a record removes the
paper. Fetches are retried, and one that takes too long is given up. -/

namespace PaperIndex

open Time (Instant)

/-- The engines for records and citations, and when fetches are retried. -/
structure Application (ρ ω γ : Type) where
  sync : Sync.Engine ρ ω
  citations : Citations.Engine γ
  retry : RetryPolicy

namespace Application

/-- What the index changes. -/
structure State (ρ ω γ : Type) where
  records : Sync.State ρ ω
  graph : γ
deriving DecidableEq, Repr

variable {ρ ω γ : Type}

/-- Makes one attempt to fetch a record. -/
def attempt (a : Application ρ ω γ) (uri : String) (hint : Option String) (st : Sync.State ρ ω) :
    Attempt (Option Fetched) × Sync.State ρ ω :=
  let (answer, world, cache) := a.sync.repository.fetch uri hint st.world st.cache
  let took : Duration := ⟨a.sync.repository.latency uri hint st.world⟩
  (⟨answer.mapError fun e => .transient (.fetch e), took⟩, ⟨cache, world⟩)

/-- Fetches a record and stores it; an eprint becomes a paper. -/
def index (a : Application ρ ω γ) (now : Instant) (uri : String) (hint : Option String)
    (st : State ρ ω γ) : Except IndexError Record × State ρ ω γ :=
  let (run, records) := a.retry.run (a.attempt uri hint) st.records
  match run.result with
  | .error e => (.error e, { st with records })
  | .ok none => (.error (.notFound uri), { st with records })
  | .ok (some fetched) =>
    let (r, records) :=
      a.sync.index now uri fetched.cid fetched.endpoint fetched.value records
    match r with
    | .error e => (.error e, { st with records })
    | .ok record =>
      if record.isEprint then
        let (r, graph) := a.citations.register uri st.graph
        (r.map fun _ => record, ⟨records, graph⟩)
      else (.ok record, { st with records })

/-- Removes a record from the cache and from the graph. -/
def delete (a : Application ρ ω γ) (uri : String) (st : State ρ ω γ) :
    Except IndexError Unit × State ρ ω γ :=
  let (r, records) := a.sync.delete uri st.records
  match r with
  | .error e => (.error e, { st with records })
  | .ok () =>
    let (r, graph) := a.citations.remove uri st.graph
    (r.map fun _ => (), ⟨records, graph⟩)

end Application

end PaperIndex
