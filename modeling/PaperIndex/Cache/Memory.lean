import PaperIndex.Cache.Basic
import PaperIndex.Table

/-! # The record cache in memory

Two tables, one of entries by URI and one of servers by endpoint. -/

namespace PaperIndex.Cache

open Time (Instant)

/-- The state of the cache. -/
structure Memory where
  records : Table String IndexedRecord
  registry : Table String ServerEntry
deriving DecidableEq

namespace Memory

/-- The cache without entries. -/
def empty : Memory := ⟨.empty, .empty⟩

instance : Inhabited Memory := ⟨empty⟩

/-- Edits the entry of a URI, if there is one that passes the test. -/
def update (m : Memory) (uri : String) (test : IndexedRecord → Bool)
    (f : IndexedRecord → IndexedRecord) : Except StoreError Bool × Memory :=
  match m.records.find? uri with
  | some r =>
    if test r then (.ok true, { m with records := m.records.modify uri f })
    else (.ok false, m)
  | none => (.ok false, m)

/-- The cache in memory. -/
def store : Store Memory where
  get uri m := .ok (m.records.find? uri)
  upsert r m := (.ok (), { m with records := m.records.insert r.uri r })
  updateContent uri hash body t m :=
    m.update uri (fun _ => true) fun r =>
      { r with contentHash := hash, body := body, indexedAt := t }
  updateSource uri hash endpoint t m :=
    m.update uri (fun _ => true) fun r =>
      { r with contentHash := hash, endpoint := endpoint, indexedAt := t }
  touchVerified uri hash t m :=
    m.update uri (fun r => r.contentHash == hash) fun r => { r with indexedAt := t }
  delete uri m :=
    (.ok (m.records.find? uri).isSome, { m with records := m.records.erase uri })
  indexedBefore cutoff limit m :=
    let stale := (m.records.rows.map Prod.snd).filter fun r => r.indexedAt < cutoff
    .ok ((stale.mergeSort scanOrder).take limit)
  registerServer endpoint t m :=
    if (m.registry.find? endpoint).isSome then (.ok (), m)
    else (.ok (), { m with registry := m.registry.insert endpoint ⟨endpoint, t, none⟩ })
  servers m :=
    .ok ((m.registry.rows.map Prod.snd).mergeSort fun a b => a.endpoint ≤ b.endpoint)
  markSwept endpoint t m :=
    (.ok (), { m with registry := m.registry.modify endpoint fun s =>
      { s with lastSweptAt := some t } })

end Memory

end PaperIndex.Cache
