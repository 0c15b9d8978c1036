import PaperIndex.Cache.Relational
import PaperIndex.Counter.Relational
import PaperIndex.Graph.Relational
import PaperIndex.Metrics.Summary

/-! # The database of the index

All relations of the index together, and what they hold at a glance. -/

namespace PaperIndex

/-- The relations of the index. -/
structure Database where
  cache : Cache.Relational
  counters : Counter.Relational
  summaries : Table String Metrics.SummaryRow
  graph : Graph.Relational

/-- What a database holds at a glance. -/
structure Overview where
  records : Nat
  /-- The least instant at which a record was confirmed. -/
  oldest : Option Int
  servers : Nat
  liveKeys : Nat
  summaries : Nat
  papers : Nat
  citations : Nat
  /-- The kinds of records, the most frequent first. -/
  kinds : List (String × Nat)
deriving DecidableEq, Repr

namespace Database

/-- The database without rows. -/
def empty : Database := ⟨.empty, .empty, .empty, .empty⟩

instance : Inhabited Database := ⟨empty⟩

/-- The order of kinds: the most frequent first, then by name. -/
def kindOrder (a b : String × Nat) : Bool := b.2 < a.2 || (a.2 == b.2 && a.1 ≤ b.1)

/-- How often each kind occurs. -/
def kindCounts (kinds : List String) : List (String × Nat) :=
  (kinds.eraseDups.map fun k => (k, kinds.count k)).mergeSort kindOrder

/-- What a database holds at an instant. -/
def overview (now : Int) (db : Database) : Overview :=
  let rows := db.cache.records.rows.map Prod.snd
  { records := rows.length
    oldest := (rows.map (·.indexedAt)).min?
    servers := db.cache.registry.size
    liveKeys := db.counters.keys.rows.countP fun k => Counter.isLive now k.2
    summaries := db.summaries.size
    papers := db.graph.papers.size
    citations := db.graph.citations.size
    kinds := kindCounts (rows.map (·.typeName)) }

end Database

end PaperIndex
