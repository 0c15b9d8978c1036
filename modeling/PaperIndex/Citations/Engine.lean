import PaperIndex.Citations.Submission
import PaperIndex.Text.Blank

/-! # The citation graph in use

Citations between papers are submitted in batches. Those that cite their own paper, name no paper or
touch a URI that is no paper are skipped and counted. Listings are answered in pages. -/

namespace PaperIndex.Citations

open Time (Instant)

/-- The graph and the limits on pages. -/
structure Engine (γ : Type) where
  graph : Graph.Store γ
  defaultLimit : Nat
  maxLimit : Nat

/-- What became of a batch. -/
structure BatchOutcome where
  submitted : Nat
  materialized : Nat
  skipped : Nat
deriving DecidableEq, Repr

/-- The value of an outcome. -/
def BatchOutcome.toJson (o : BatchOutcome) : Json :=
  .object [("submitted", .int o.submitted), ("materialized", .int o.materialized),
    ("skipped", .int o.skipped)]

/-- A page of a listing. -/
structure Page where
  citations : List Edge
  /-- The length of the whole listing. -/
  total : Nat
  hasMore : Bool
deriving DecidableEq, Repr

/-- The value of a page. -/
def Page.toJson (p : Page) : Json :=
  .object [("citations", .array (p.citations.map Edge.toJson)), ("total", .int p.total),
    ("hasMore", .bool p.hasMore)]

/-- Whether a citation names two different papers. -/
def isSubmittable (c : Citation) : Bool :=
  !c.citing.isEmpty && !c.cited.isEmpty && c.citing != c.cited

/-- The failure of the graph. -/
def graphFailure (e : StoreError) : IndexError := .transient (.store e)

/-- The page made of its citations and the length of the listing. -/
def pageOf (offset : Nat) (citations : List Edge) (total : Nat) : Page :=
  ⟨citations, total, offset + citations.length < total⟩

namespace Engine

variable {γ : Type}

/-- The graph with the usual limits on pages. -/
def withUsualLimits (graph : Graph.Store γ) : Engine γ := ⟨graph, 50, 100⟩

/-- Sets the limits on pages: both are at least one, the greatest at least the default. -/
def withLimits (defaultLimit maxLimit : Nat) (e : Engine γ) : Engine γ :=
  let least := max defaultLimit 1
  { e with defaultLimit := least, maxLimit := max maxLimit least }

/-- Makes a URI a paper. -/
def register (e : Engine γ) (uri : String) (st : γ) : Except IndexError Unit × γ :=
  if Text.isBlankText uri then (.error (.validation .emptyUri), st)
  else
    let (r, st) := e.graph.addPaper uri st
    (r.mapError graphFailure, st)

/-- Removes a paper and its citations; reports whether it was one. -/
def remove (e : Engine γ) (uri : String) (st : γ) : Except IndexError Bool × γ :=
  let (r, st) := e.graph.removePaper uri st
  (r.mapError graphFailure, st)

/-- Submits a batch of citations. -/
def submit (e : Engine γ) (now : Instant) (citations : List Citation) (st : γ) :
    Except IndexError BatchOutcome × γ :=
  let n := citations.length
  let kept := citations.filter isSubmittable
  if kept.isEmpty then (.ok ⟨n, 0, n⟩, st)
  else
    let (r, st) := e.graph.merge ⟨now, kept⟩ st
    (match r with
      | .ok merged => .ok ⟨n, merged, n - merged⟩
      | .error err => .error (graphFailure err),
      st)

/-- The limit and offset of a page. -/
def pageBounds (e : Engine γ) (p : PageRequest) : Except IndexError (Nat × Nat) :=
  let limit := p.limit.getD e.defaultLimit
  if limit = 0 ∨ e.maxLimit < limit then .error (.validation (.pageLimit e.maxLimit))
  else .ok (limit, p.offset.getD 0)

/-- A page of the citations of a paper. -/
def citing (e : Engine γ) (uri : String) (p : PageRequest) (st : γ) : Except IndexError Page := do
  let (limit, offset) ← e.pageBounds p
  let citations ← (e.graph.citing uri limit offset st).mapError graphFailure
  let total ← (e.graph.countCiting uri st).mapError graphFailure
  return pageOf offset citations total

/-- A page of the citations that a paper makes. -/
def references (e : Engine γ) (uri : String) (p : PageRequest) (st : γ) :
    Except IndexError Page := do
  let (limit, offset) ← e.pageBounds p
  let citations ← (e.graph.references uri limit offset st).mapError graphFailure
  let total ← (e.graph.countReferences uri st).mapError graphFailure
  return pageOf offset citations total

/-- The papers that share at least so many citers with a URI. -/
def coCited (e : Engine γ) (uri : String) (threshold : Nat) (st : γ) :
    Except IndexError (List CoCitation) :=
  if threshold = 0 then .error (.validation .minCoCitations)
  else (e.graph.coCited uri threshold st).mapError graphFailure

/-- Deletes every citation at a URI; reports how many there were. -/
def deleteFor (e : Engine γ) (uri : String) (st : γ) : Except IndexError Nat × γ :=
  let (r, st) := e.graph.deleteFor uri st
  (r.mapError graphFailure, st)

end Engine

end PaperIndex.Citations
