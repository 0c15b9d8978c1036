import PaperIndex.Cache.Basic
import PaperIndex.Table

/-! # The relational record cache

Two relations, one of entries under their URI and one of servers under their endpoint. Instants are
stored as numbers of milliseconds; a row whose number has no date cannot be read. Beside a finer
clock, the cache is `store.inMillis`. -/

namespace PaperIndex.Cache

open Time (Instant)

/-- The columns of an entry beside its URI. -/
structure RecordRow where
  cid : String
  endpoint : String
  typeName : String
  body : String
  indexedAt : Int
deriving DecidableEq, Repr

/-- The columns of a server beside its endpoint. -/
structure ServerRow where
  registeredAt : Int
  lastSweptAt : Option Int
deriving DecidableEq, Repr

/-- The relations of the cache, each under its primary key. -/
structure Relational where
  records : Table String RecordRow
  registry : Table String ServerRow
deriving DecidableEq

namespace Relational

/-- The cache without rows. -/
def empty : Relational := ⟨.empty, .empty⟩

instance : Inhabited Relational := ⟨empty⟩

/-- The instant that is stored as a number. -/
def dated (n : Int) : Except StoreError Instant :=
  if Time.hasDate n then .ok n else .error (.undated n)

/-- The entry of a row. -/
def recordOf (row : String × RecordRow) : Except StoreError IndexedRecord := do
  let t ← dated row.2.indexedAt
  return ⟨row.1, row.2.cid, row.2.endpoint, row.2.typeName, row.2.body, t⟩

/-- The server of a row. -/
def serverOf (row : String × ServerRow) : Except StoreError ServerEntry := do
  let registered ← dated row.2.registeredAt
  let swept ← row.2.lastSweptAt.mapM dated
  return ⟨row.1, registered, swept⟩

/-- The order of a scan: by instant, then by URI. -/
def rowOrder (a b : String × RecordRow) : Bool :=
  a.2.indexedAt < b.2.indexedAt || (a.2.indexedAt == b.2.indexedAt && a.1 ≤ b.1)

/-- Edits the rows with a URI that pass the test, and reports whether there were any. -/
def update (r : Relational) (uri : String) (test : RecordRow → Bool)
    (f : RecordRow → RecordRow) : Except StoreError Bool × Relational :=
  if r.records.rows.any fun row => row.1 == uri && test row.2 then
    (.ok true,
      { r with records := r.records.modify uri fun row => if test row then f row else row })
  else (.ok false, r)

/-- The relational cache. -/
def store : Store Relational where
  get uri r :=
    match r.records.find? uri with
    | some row => (recordOf (uri, row)).map some
    | none => .ok none
  upsert e r :=
    let row := ⟨e.contentHash, e.endpoint, e.typeName, e.body, e.indexedAt⟩
    (.ok (), { r with records := r.records.insert e.uri row })
  updateContent uri hash body t r :=
    r.update uri (fun _ => true) fun row => { row with cid := hash, body := body, indexedAt := t }
  updateSource uri hash endpoint t r :=
    r.update uri (fun _ => true) fun row =>
      { row with cid := hash, endpoint := endpoint, indexedAt := t }
  touchVerified uri hash t r :=
    r.update uri (fun row => row.cid == hash) fun row => { row with indexedAt := t }
  delete uri r :=
    (.ok (r.records.contains uri), { r with records := r.records.erase uri })
  indexedBefore cutoff limit r :=
    let stale := r.records.rows.filter fun row => row.2.indexedAt < cutoff
    ((stale.mergeSort rowOrder).take limit).mapM recordOf
  registerServer endpoint t r :=
    if r.registry.contains endpoint then (.ok (), r)
    else (.ok (), { r with registry := r.registry.insert endpoint ⟨t, none⟩ })
  servers r := (r.registry.rows.mergeSort fun a b => a.1 ≤ b.1).mapM serverOf
  markSwept endpoint t r :=
    (.ok (), { r with registry := r.registry.modify endpoint fun s =>
      { s with lastSweptAt := some t } })

end Relational

end PaperIndex.Cache
