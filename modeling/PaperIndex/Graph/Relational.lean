import PaperIndex.Graph.Basic

/-! # The relational citation graph

A relation of papers and a relation of citations under their two ends. The test that both ends are
papers is part of the insertion. Co-citations are found by one join of the citations with
themselves. -/

namespace PaperIndex.Graph

open Time (Instant)

/-- The columns of a citation beside its ends. -/
structure CitationRow where
  isInfluential : Bool
  source : String
  discoveredAt : Int
deriving DecidableEq, Repr

/-- The relations of the graph, each under its primary key. -/
structure Relational where
  papers : Table String Unit
  citations : Table (String × String) CitationRow
deriving DecidableEq

namespace Relational

/-- The graph without rows. -/
def empty : Relational := ⟨.empty, .empty⟩

instance : Inhabited Relational := ⟨empty⟩

/-- The citation of a row. -/
def edgeOf (row : (String × String) × CitationRow) : Except StoreError Edge :=
  if Time.hasDate row.2.discoveredAt then
    .ok ⟨row.1.1, row.1.2, row.2.isInfluential, row.2.source, row.2.discoveredAt⟩
  else .error (.undated row.2.discoveredAt)

/-- Inserts a citation if its ends are papers, or updates the row it meets; counts the row that is
written. -/
def insertCitation (r : Relational) (discoveredAt : Instant) (c : Citation) : Nat × Relational :=
  if r.papers.contains c.citing && r.papers.contains c.cited then
    let key := (c.citing, c.cited)
    if r.citations.contains key then
      (1, { r with citations := r.citations.modify key fun row =>
        { row with isInfluential := c.isInfluential, source := c.source } })
    else
      (1, { r with
        citations := r.citations.insert key ⟨c.isInfluential, c.source, discoveredAt⟩ })
  else (0, r)

/-- Inserts citations in turn and counts the rows written. -/
def insertAll (r : Relational) (discoveredAt : Instant) (cs : List Citation) : Nat × Relational :=
  cs.foldl (fun (n, r) c =>
    let (k, r) := r.insertCitation discoveredAt c
    (n + k, r)) (0, r)

/-- Whether a row has a URI at either end. -/
def touches (uri : String) (key : String × String) : Bool := key.1 == uri || key.2 == uri

/-- Deletes the citations at a URI and counts them. -/
def deleteFor (r : Relational) (uri : String) : Nat × Relational :=
  (r.citations.rows.countP fun row => touches uri row.1,
    { r with citations := r.citations.filter fun key _ => !touches uri key })

/-- The order of a listing by discovery and by the end that `other` selects. -/
def rowOrder (other : String × String → String) (a b : (String × String) × CitationRow) : Bool :=
  b.2.discoveredAt < a.2.discoveredAt ||
    (a.2.discoveredAt == b.2.discoveredAt && other a.1 ≤ other b.1)

/-- The part of the citations that pass a test, in listing order. -/
def list (r : Relational) (test : String × String → Bool) (other : String × String → String)
    (limit offset : Nat) : Except StoreError (List Edge) :=
  let found := r.citations.rows.filter fun row => test row.1
  (slice limit offset (found.mergeSort (rowOrder other))).mapM edgeOf

/-- The number of citations that pass a test. -/
def count (r : Relational) (test : String × String → Bool) : Nat :=
  r.citations.rows.countP fun row => test row.1

/-- The pairs of a paper other than `uri` and one of its citers, for all citers of `uri`. -/
def join (r : Relational) (uri : String) : List (String × String) :=
  r.citations.rows.flatMap fun target =>
    if target.1.2 == uri then
      (r.citations.rows.filter fun other =>
        other.1.1 == target.1.1 && other.1.2 != uri).map fun other => (other.1.2, other.1.1)
    else []

/-- The groups of a join with the number of distinct citers in each. -/
def groups (pairs : List (String × String)) : List (String × Nat) :=
  (pairs.map Prod.fst).eraseDups.map fun uri =>
    (uri, ((pairs.filter fun p => p.1 == uri).map Prod.snd).eraseDups.length)

/-- The relational graph. -/
def store : Store Relational where
  addPaper uri r :=
    (.ok (), if r.papers.contains uri then r else { r with papers := r.papers.insert uri () })
  removePaper uri r :=
    let r := (r.deleteFor uri).2
    (.ok (r.papers.contains uri), { r with papers := r.papers.erase uri })
  isPaper uri r := .ok (r.papers.contains uri)
  merge batch r :=
    let (n, r) := r.insertAll batch.discoveredAt batch.citations
    (.ok n, r)
  citing uri limit offset r := r.list (·.2 == uri) (·.1) limit offset
  countCiting uri r := .ok (r.count (·.2 == uri))
  references uri limit offset r := r.list (·.1 == uri) (·.2) limit offset
  countReferences uri r := .ok (r.count (·.1 == uri))
  deleteFor uri r :=
    let (n, r) := r.deleteFor uri
    (.ok n, r)
  coCited uri threshold r :=
    .ok (rank (groups (r.join uri)) threshold)

end Relational

end PaperIndex.Graph
