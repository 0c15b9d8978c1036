import PaperIndex.Error
import PaperIndex.Json.Basic

/-! # What checks, refreshes and sweeps find

A check compares an entry with its authoritative record, or says why it cannot. A refresh tells
whether the entry changed. A sweep counts the outcomes of its refreshes. -/

namespace PaperIndex.Sync

/-- What a check finds. -/
inductive Finding
  | notIndexed
  | lookupFailed (e : StoreError)
  /-- The repository has no such record. -/
  | missing (indexed : String)
  | fetchFailed (indexed : String) (e : FetchError)
  /-- Both content identifiers are known. -/
  | compared (indexed current : String)
deriving DecidableEq, Repr

namespace Finding

/-- The content identifier of the entry, if there is an entry. -/
def indexedCid : Finding → Option String
  | .notIndexed => none
  | .lookupFailed _ => none
  | .missing indexed => some indexed
  | .fetchFailed indexed _ => some indexed
  | .compared indexed _ => some indexed

/-- The authoritative content identifier, if it could be obtained. -/
def currentCid : Finding → Option String
  | .compared _ current => some current
  | _ => none

/-- Whether the entry is stale, if that is known. -/
def isStale : Finding → Option Bool
  | .compared indexed current => some (current != indexed)
  | _ => none

/-- Why nothing is known, otherwise. -/
def problem : Finding → Option String
  | .notIndexed => some "not indexed"
  | .lookupFailed e => some ("index lookup failed: " ++ e.message)
  | .missing _ => some "record not found in repository"
  | .fetchFailed _ e => some ("fetch failed: " ++ e.message)
  | .compared _ _ => none

end Finding

/-- The result of a check. -/
structure Check where
  uri : String
  finding : Finding
deriving DecidableEq, Repr

/-- The value of a check, without the fields that have none. -/
def Check.toJson (c : Check) : Json :=
  let present (name : String) (j : Option Json) : List (String × Json) :=
    (j.map fun j => (name, j)).toList
  .object ([("uri", .string c.uri), ("indexedCID", .ofOption c.finding.indexedCid)] ++
    present "pdsCID" (c.finding.currentCid.map .string) ++
    present "isStale" (c.finding.isStale.map .bool) ++
    present "error" (c.finding.problem.map .string))

/-- The result of a refresh: the content identifiers before and after it. -/
structure Refresh where
  changed : Bool
  previous : String
  current : String
deriving DecidableEq, Repr

/-- The value of a refresh. -/
def Refresh.toJson (r : Refresh) : Json :=
  .object [("refreshed", .bool true), ("changed", .bool r.changed),
    ("previousCID", .string r.previous), ("currentCID", .string r.current)]

/-- How the refresh of one entry of a sweep ends. -/
inductive Swept
  | changed
  | confirmed
  | notFound
  | failed
deriving DecidableEq, Repr

/-- The counts of a sweep. -/
structure Report where
  examined : Nat
  refreshed : Nat
  changed : Nat
  notFound : Nat
  failed : Nat
deriving DecidableEq, Repr

/-- The counts of outcomes. -/
def Report.of (outcomes : List Swept) : Report where
  examined := outcomes.length
  refreshed := outcomes.count .changed + outcomes.count .confirmed
  changed := outcomes.count .changed
  notFound := outcomes.count .notFound
  failed := outcomes.count .failed

end PaperIndex.Sync
