import PaperIndex.Error
import PaperIndex.Time.Calendar
import PaperIndex.Table

/-! # Citation graphs

A graph holds papers and the citations between them, at most one for each ordered pair. A citation
is merged only if both its ends are papers; one that is already there keeps the instant of its
discovery and takes the other attributes of the new one. Listings have the newest discovery first
and then the other end in ascending order. -/

namespace PaperIndex

open Time (Instant)

/-- A citation as it is submitted. -/
structure Citation where
  citing : String
  cited : String
  isInfluential : Bool
  /-- Where the citation was found. -/
  source : String
deriving DecidableEq, Repr

/-- A citation of the graph. -/
structure Edge where
  citing : String
  cited : String
  isInfluential : Bool
  source : String
  discoveredAt : Instant
deriving DecidableEq, Repr

/-- A paper that shares citers with another, and how many it shares. -/
structure CoCitation where
  uri : String
  count : Nat
deriving DecidableEq, Repr

namespace Graph

/-- Citations to be merged together, with the instant of discovery for the new ones. -/
structure Batch where
  discoveredAt : Instant
  citations : List Citation
deriving DecidableEq, Repr

/-- What a graph with states `γ` can do. -/
structure Store (γ : Type) where
  addPaper : String → γ → Except StoreError Unit × γ
  /-- Removes a paper and every citation at it; reports whether it was there. -/
  removePaper : String → γ → Except StoreError Bool × γ
  isPaper : String → γ → Except StoreError Bool
  /-- Merges a batch; reports how many of its citations were created or updated. -/
  merge : Batch → γ → Except StoreError Nat × γ
  /-- The citations of a paper, by limit and offset. -/
  citing : String → Nat → Nat → γ → Except StoreError (List Edge)
  countCiting : String → γ → Except StoreError Nat
  /-- The citations that a paper makes, by limit and offset. -/
  references : String → Nat → Nat → γ → Except StoreError (List Edge)
  countReferences : String → γ → Except StoreError Nat
  /-- Deletes every citation at a URI; reports how many there were. -/
  deleteFor : String → γ → Except StoreError Nat × γ
  /-- The other papers that share at least so many citers with a URI. -/
  coCited : String → Nat → γ → Except StoreError (List CoCitation)

/-- The graph that may only be read. A batch without citations is no harm. -/
def Store.readOnly {γ : Type} (s : Store γ) : Store γ :=
  let refuse {α : Type} (st : γ) : Except StoreError α × γ := (.error (.refused .readOnly), st)
  { s with
    addPaper := fun _ => refuse
    removePaper := fun _ => refuse
    merge := fun b => if b.citations.isEmpty then s.merge b else refuse
    deleteFor := fun _ => refuse }

/-- The order of a listing by discovery and by the end that `other` selects. -/
def listingOrder (other : Edge → String) (a b : Edge) : Bool :=
  b.discoveredAt < a.discoveredAt || (a.discoveredAt == b.discoveredAt && other a ≤ other b)

/-- The part of a listing with the given limit and offset. -/
def slice {α : Type} (limit offset : Nat) (xs : List α) : List α := (xs.drop offset).take limit

/-- The order of co-citations: the greatest count first, then by URI. -/
def rankOrder (a b : CoCitation) : Bool :=
  b.count < a.count || (a.count == b.count && a.uri ≤ b.uri)

/-- The counts that reach a threshold, in rank order. -/
def rank (counts : List (String × Nat)) (threshold : Nat) : List CoCitation :=
  ((counts.filter fun r => threshold ≤ r.2).map fun r => ⟨r.1, r.2⟩).mergeSort rankOrder

/-- The greatest limit of a listing. -/
def maxLimit : Nat := Word.greatest 32

end Graph

end PaperIndex
