import PaperIndex.Graph.Basic

/-! # The citation graph in memory

A table of papers and a table of citations by their ends. Co-citations are found by walking from the
paper to its citers and from each of them to its references. -/

namespace PaperIndex.Graph

open Time (Instant)

/-- The attributes of a citation beside its ends. -/
structure Attributes where
  isInfluential : Bool
  source : String
  discoveredAt : Instant
deriving DecidableEq, Repr

/-- The state of the graph. -/
structure Memory where
  papers : Table String Unit
  /-- The citations by citing and cited paper. -/
  edges : Table (String × String) Attributes
deriving DecidableEq

namespace Memory

/-- The graph without papers. -/
def empty : Memory := ⟨.empty, .empty⟩

instance : Inhabited Memory := ⟨empty⟩

/-- Whether a URI is a paper. -/
def isPaper (m : Memory) (uri : String) : Bool := (m.papers.find? uri).isSome

/-- A citation with its ends. -/
def edgeOf (r : (String × String) × Attributes) : Edge :=
  ⟨r.1.1, r.1.2, r.2.isInfluential, r.2.source, r.2.discoveredAt⟩

/-- Creates or updates a citation whose ends are papers. -/
def put (edges : Table (String × String) Attributes) (discoveredAt : Instant) (c : Citation) :
    Table (String × String) Attributes :=
  let key := (c.citing, c.cited)
  if (edges.find? key).isSome then
    edges.modify key fun a => { a with isInfluential := c.isInfluential, source := c.source }
  else edges.insert key ⟨c.isInfluential, c.source, discoveredAt⟩

/-- Merges citations in turn and counts those whose ends are papers. -/
def mergeAll (m : Memory) (discoveredAt : Instant) : List Citation → Nat × Memory
  | [] => (0, m)
  | c :: cs =>
    if m.isPaper c.citing && m.isPaper c.cited then
      let (n, m) := mergeAll { m with edges := put m.edges discoveredAt c } discoveredAt cs
      (n + 1, m)
    else mergeAll m discoveredAt cs

/-- The citations without those at a URI. -/
def without (m : Memory) (uri : String) : Table (String × String) Attributes :=
  m.edges.filter fun k _ => k.1 != uri && k.2 != uri

/-- The listing of the citations of a paper. -/
def citingEdges (m : Memory) (uri : String) : List Edge :=
  ((m.edges.rows.filter fun r => r.1.2 == uri).map edgeOf).mergeSort (listingOrder (·.citing))

/-- The listing of the citations that a paper makes. -/
def referenceEdges (m : Memory) (uri : String) : List Edge :=
  ((m.edges.rows.filter fun r => r.1.1 == uri).map edgeOf).mergeSort (listingOrder (·.cited))

/-- The number of citations of a paper. -/
def countCiting (m : Memory) (uri : String) : Nat := m.edges.rows.countP fun r => r.1.2 == uri

/-- The number of citations that a paper makes. -/
def countReferences (m : Memory) (uri : String) : Nat := m.edges.rows.countP fun r => r.1.1 == uri

/-- Counts a paper once more. -/
def tally (counts : Table String Nat) (uri : String) : Table String Nat :=
  counts.insert uri ((counts.find? uri).getD 0 + 1)

/-- How often each other paper is met on a walk from a paper over its citers to their
references. -/
def walk (m : Memory) (uri : String) : Table String Nat :=
  let citers := slice (min (m.countCiting uri) maxLimit) 0 (m.citingEdges uri)
  citers.foldl (fun counts citer =>
    let n := m.countReferences citer.citing
    let found := slice (min n maxLimit) 0 (m.referenceEdges citer.citing)
    found.foldl (fun counts e => if e.cited = uri then counts else tally counts e.cited) counts)
    .empty

/-- The graph in memory. -/
def store : Store Memory where
  addPaper uri m := (.ok (), { m with papers := m.papers.insert uri () })
  removePaper uri m :=
    (.ok (m.isPaper uri), ⟨m.papers.erase uri, m.without uri⟩)
  isPaper uri m := .ok (m.isPaper uri)
  merge batch m :=
    let (n, m) := m.mergeAll batch.discoveredAt batch.citations
    (.ok n, m)
  citing uri limit offset m := .ok (slice limit offset (m.citingEdges uri))
  countCiting uri m := .ok (m.countCiting uri)
  references uri limit offset m := .ok (slice limit offset (m.referenceEdges uri))
  countReferences uri m := .ok (m.countReferences uri)
  deleteFor uri m :=
    let edges := m.without uri
    (.ok (m.edges.size - edges.size), { m with edges })
  coCited uri threshold m := .ok (rank (m.walk uri).rows threshold)

end Memory

end PaperIndex.Graph
