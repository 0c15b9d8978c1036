import PaperIndex.Proofs.Cache.Laws
import PaperIndex.Proofs.Fallible

/-! # The two caches side by side

A cache simulates another one along a relation of their states, for certain instants, if all calls
with such instants on related states are answered alike and leave related states
(`Store.Simulates`). This is not lost when the same calls of both are made to fail.

The relational cache simulates the one in memory along `Mirrors`: its relations hold the tables of
the other cache row by row, every record and server stands under its own name, and all instants have
dates (`mirrors_simulates`); the instants it does so for are those with dates. -/

namespace PaperIndex

open Time (Instant)

/-- Two calls are answered alike and leave related states. -/
def Alike {α σ σ' : Type} (R : σ → σ' → Prop) (r : α × σ) (r' : α × σ') : Prop :=
  r'.1 = r.1 ∧ R r.2 r'.2

theorem Alike.failing {ε α σ σ' : Type} {R : σ → σ' → Prop} {r : Except ε α × σ}
    {r' : Except ε α × σ'} (h : Alike R r r') {failing : Prop} [Decidable failing] {err : ε}
    {st : σ} {st' : σ'} (hst : R st st') :
    Alike R (if failing then (.error err, st) else r)
      (if failing then (.error err, st') else r') := by
  by_cases hf : failing
  · rw [if_pos hf, if_pos hf]
    exact ⟨rfl, hst⟩
  · rwa [if_neg hf, if_neg hf]

/-- The columns of a record beside its URI. -/
def IndexedRecord.row (e : IndexedRecord) : Cache.RecordRow :=
  ⟨e.contentHash, e.endpoint, e.typeName, e.body, e.indexedAt⟩

/-- The columns of a server beside its endpoint. -/
def ServerEntry.row (s : ServerEntry) : Cache.ServerRow := ⟨s.registeredAt, s.lastSweptAt⟩

namespace Cache

/-! ### Simulation -/

section Simulation
variable {ρ ρ' : Type} (R : ρ → ρ' → Prop) (Good : Instant → Prop)

/-- **The cache `s'` simulates `s`** along a relation of their states, for the instants that are
good. -/
structure Store.Simulates (s' : Store ρ') (s : Store ρ) : Prop where
  get : ∀ uri {st st'}, R st st' → s'.get uri st' = s.get uri st
  upsert : ∀ r {st st'}, Good r.indexedAt → R st st' →
    Alike R (s.upsert r st) (s'.upsert r st')
  updateContent : ∀ uri hash body {t st st'}, Good t → R st st' →
    Alike R (s.updateContent uri hash body t st) (s'.updateContent uri hash body t st')
  updateSource : ∀ uri hash endpoint {t st st'}, Good t → R st st' →
    Alike R (s.updateSource uri hash endpoint t st) (s'.updateSource uri hash endpoint t st')
  touchVerified : ∀ uri hash {t st st'}, Good t → R st st' →
    Alike R (s.touchVerified uri hash t st) (s'.touchVerified uri hash t st')
  delete : ∀ uri {st st'}, R st st' → Alike R (s.delete uri st) (s'.delete uri st')
  indexedBefore : ∀ {cutoff} limit {st st'}, Good cutoff → R st st' →
    s'.indexedBefore cutoff limit st' = s.indexedBefore cutoff limit st
  registerServer : ∀ endpoint {t st st'}, Good t → R st st' →
    Alike R (s.registerServer endpoint t st) (s'.registerServer endpoint t st')
  servers : ∀ {st st'}, R st st' → s'.servers st' = s.servers st
  markSwept : ∀ endpoint {t st st'}, Good t → R st st' →
    Alike R (s.markSwept endpoint t st) (s'.markSwept endpoint t st')

variable {R Good}

theorem Store.Simulates.failing {s' : Store ρ'} {s : Store ρ} (h : s'.Simulates R Good s)
    (calls : List Call) : (s'.failing calls).Simulates R Good (s.failing calls) where
  get uri _ _ hst := congrArg (ite _ _) (h.get uri hst)
  upsert r _ _ ht hst := (h.upsert r ht hst).failing hst
  updateContent uri hash body _ _ _ ht hst := (h.updateContent uri hash body ht hst).failing hst
  updateSource uri hash endpoint _ _ _ ht hst :=
    (h.updateSource uri hash endpoint ht hst).failing hst
  touchVerified uri hash _ _ _ ht hst := (h.touchVerified uri hash ht hst).failing hst
  delete uri _ _ hst := (h.delete uri hst).failing hst
  indexedBefore limit _ _ ht hst := congrArg (ite _ _) (h.indexedBefore limit ht hst)
  registerServer endpoint _ _ _ ht hst := (h.registerServer endpoint ht hst).failing hst
  servers hst := congrArg (ite _ _) (h.servers hst)
  markSwept endpoint _ _ _ ht hst := (h.markSwept endpoint ht hst).failing hst

end Simulation

/-! ### The records of a relation -/

namespace Relational

/-- The records of all rows, whether or not their instants have dates. -/
def entries (r : Relational) : List IndexedRecord :=
  r.records.rows.map fun row => row.2.entry row.1

/-- The instants of all records have dates. -/
def Dated (r : Relational) : Prop := ∀ row ∈ r.records.rows, Time.hasDate row.2.indexedAt = true

theorem recordOf_of_hasDate {row : String × RecordRow} (h : Time.hasDate row.2.indexedAt = true) :
    recordOf row = .ok (row.2.entry row.1) := by
  unfold recordOf dated
  rw [if_pos h]
  rfl

/-- **A scan** of dated rows lists the first of the records that were confirmed before. -/
theorem indexedBefore_eq {r : Relational} (h : r.Dated) (cutoff : Instant) (limit : Nat) :
    store.indexedBefore cutoff limit r =
      .ok (((r.entries.filter fun e => e.indexedAt < cutoff).mergeSort scanOrder).take limit) := by
  let stale := r.records.rows.filter fun row => row.2.indexedAt < cutoff
  have hsorted : (r.entries.filter fun e => e.indexedAt < cutoff).mergeSort scanOrder =
      (stale.mergeSort rowOrder).map fun row => row.2.entry row.1 := by
    unfold entries
    rw [List.filter_map]
    exact (List.map_mergeSort (f := fun row : String × RecordRow => row.2.entry row.1)
      (r := rowOrder) fun _ _ _ _ => rfl).symm
  have hread : ∀ row ∈ (stale.mergeSort rowOrder).take limit,
      recordOf row = .ok (row.2.entry row.1) := by
    intro row hrow
    have hstale := List.mem_mergeSort.1 (List.mem_of_mem_take hrow)
    exact recordOf_of_hasDate (h row (List.mem_of_mem_filter hstale))
  rw [hsorted, ← List.map_take]
  exact mapM_eq_ok hread

end Relational

/-! ### The mirror -/

/-- Every record stands under its URI. -/
def Memory.Keyed (m : Memory) : Prop := ∀ x ∈ m.records.rows, x.2.uri = x.1

/-- A record under its URI, confirmed at an instant that has a date. -/
def IsRecordAt (x : String × IndexedRecord) : Prop :=
  x.2.uri = x.1 ∧ Time.hasDate x.2.indexedAt = true

/-- A server under its endpoint, whose instants have dates. -/
def IsServerAt (x : String × ServerEntry) : Prop :=
  x.2.endpoint = x.1 ∧ Time.hasDate x.2.registeredAt = true ∧
    ∀ t, x.2.lastSweptAt = some t → Time.hasDate t = true

/-- **The relational cache mirrors the one in memory.** -/
structure Mirrors (m : Memory) (r : Relational) : Prop where
  records : r.records = m.records.mapValues IndexedRecord.row
  registry : r.registry = m.registry.mapValues ServerEntry.row
  recordsAt : ∀ x ∈ m.records.rows, IsRecordAt x
  serversAt : ∀ x ∈ m.registry.rows, IsServerAt x

namespace Mirrors

variable {m : Memory} {r : Relational}

theorem empty : Mirrors .empty .empty :=
  ⟨rfl, rfl, fun _ h => absurd h List.not_mem_nil, fun _ h => absurd h List.not_mem_nil⟩

theorem keyed (h : Mirrors m r) : m.Keyed := fun x hx => (h.recordsAt x hx).1

theorem dated (h : Mirrors m r) : r.Dated := by
  intro row hrow
  rw [h.records, Table.rows_mapValues] at hrow
  obtain ⟨x, hx, rfl⟩ := List.mem_map.1 hrow
  exact (h.recordsAt x hx).2

theorem find?_records (h : Mirrors m r) (uri : String) :
    r.records.find? uri = (m.records.find? uri).map IndexedRecord.row := by
  rw [h.records, Table.find?_mapValues]

theorem get (h : Mirrors m r) (uri : String) :
    Relational.store.get uri r = Memory.store.get uri m := by
  unfold Relational.store Memory.store
  simp only [h.find?_records]
  cases hfind : m.records.find? uri with
  | none => rfl
  | some e =>
    obtain ⟨huri, hdate⟩ := h.recordsAt _ (Table.find?_eq_some_iff.1 hfind)
    have hread : Relational.recordOf (uri, e.row) = .ok e := by
      rw [Relational.recordOf_of_hasDate hdate, ← huri]
      rfl
    exact congrArg (Except.map some) hread

theorem upsert (h : Mirrors m r) {e : IndexedRecord} (he : Time.hasDate e.indexedAt = true) :
    Mirrors (Memory.store.upsert e m).2 (Relational.store.upsert e r).2 where
  records := by
    change r.records.insert e.uri e.row = (m.records.insert e.uri e).mapValues IndexedRecord.row
    rw [h.records, Table.insert_mapValues]
  registry := h.registry
  recordsAt := Table.forall_rows_insert h.recordsAt ⟨rfl, he⟩
  serversAt := h.serversAt

/-- An edit of the record of a URI, if it passes a test, on both sides. -/
theorem update (h : Mirrors m r) (uri : String) {test : IndexedRecord → Bool}
    {f : IndexedRecord → IndexedRecord} {test' : RecordRow → Bool} {f' : RecordRow → RecordRow}
    (htest : ∀ e : IndexedRecord, test' e.row = test e)
    (hf : ∀ e : IndexedRecord, f' e.row = (f e).row)
    (hat : ∀ e, IsRecordAt (uri, e) → IsRecordAt (uri, f e)) :
    Alike Mirrors (m.update uri test f) (r.update uri test' f') := by
  have hany : (r.records.rows.any fun row => row.1 == uri && test' row.2) =
      (m.records.find? uri).any test := by
    rw [Table.any_rows, h.find?_records, Option.any_map]
    exact congrArg (fun p => (m.records.find? uri).any p) (funext htest)
  unfold Memory.update Relational.update Alike
  rw [hany]
  cases hfind : m.records.find? uri with
  | none => exact ⟨rfl, h⟩
  | some e =>
    cases he : test e with
    | false =>
      simp only [Option.any_some, he, Bool.false_eq_true, if_false]
      exact ⟨trivial, h⟩
    | true =>
      simp only [Option.any_some, he, if_true]
      refine ⟨trivial, ?_, h.registry, Table.forall_rows_modify h.recordsAt hat, h.serversAt⟩
      -- Only the record that was found is edited, and it has passed the test.
      have hsame : m.records.modify uri f =
          m.records.modify uri fun e => if test e then f e else e := by
        refine Table.modify_congr fun a ha => ?_
        obtain rfl : e = a := Option.some.inj (hfind.symm.trans ha)
        rw [he, if_pos rfl]
      rw [h.records, hsame]
      dsimp only
      refine Table.modify_mapValues IndexedRecord.row (fun a => ?_) m.records uri
      rw [htest, hf]
      exact (apply_ite IndexedRecord.row _ _ _).symm

theorem delete (h : Mirrors m r) (uri : String) :
    Alike Mirrors (Memory.store.delete uri m) (Relational.store.delete uri r) := by
  refine ⟨congrArg Except.ok ?_, ?_, h.registry, ?_, h.serversAt⟩
  · rw [← Table.isSome_find?, h.find?_records, Option.isSome_map]
  · change r.records.erase uri = (m.records.erase uri).mapValues IndexedRecord.row
    rw [h.records]
    exact Table.filter_mapValues IndexedRecord.row m.records (· != uri)
  · exact Table.forall_rows_filter h.recordsAt _

theorem entries (h : Mirrors m r) : r.entries = m.records.rows.map Prod.snd := by
  unfold Relational.entries
  rw [h.records, Table.rows_mapValues, List.map_map]
  refine List.map_congr_left fun x hx => ?_
  obtain ⟨huri, -⟩ := h.recordsAt x hx
  rw [Function.comp_apply, ← huri]
  rfl

theorem indexedBefore (h : Mirrors m r) (cutoff : Instant) (limit : Nat) :
    Relational.store.indexedBefore cutoff limit r = Memory.store.indexedBefore cutoff limit m := by
  rw [Relational.indexedBefore_eq h.dated, h.entries]
  rfl

theorem registerServer (h : Mirrors m r) (endpoint : String) {t : Instant}
    (ht : Time.hasDate t = true) :
    Alike Mirrors (Memory.store.registerServer endpoint t m)
      (Relational.store.registerServer endpoint t r) := by
  have hknown : r.registry.contains endpoint = (m.registry.find? endpoint).isSome := by
    rw [← Table.isSome_find?, h.registry, Table.find?_mapValues, Option.isSome_map]
  change Alike Mirrors (if _ then _ else _) (if _ then _ else _)
  rw [hknown]
  by_cases hsome : (m.registry.find? endpoint).isSome = true
  · rw [if_pos hsome, if_pos hsome]
    exact ⟨rfl, h⟩
  · rw [if_neg hsome, if_neg hsome]
    refine ⟨rfl, h.records, ?_, h.recordsAt, ?_⟩
    · rw [h.registry]
      exact Table.insert_mapValues ServerEntry.row m.registry endpoint ⟨endpoint, t, none⟩
    · exact Table.forall_rows_insert h.serversAt ⟨rfl, ht, nofun⟩

theorem serverOf_row {x : String × ServerEntry} (h : IsServerAt x) :
    Relational.serverOf (x.1, x.2.row) = .ok x.2 := by
  obtain ⟨key, ⟨endpoint, registered, swept⟩⟩ := x
  obtain ⟨hendpoint, hregistered, hswept⟩ := h
  change endpoint = key at hendpoint
  subst hendpoint
  unfold Relational.serverOf Relational.dated ServerEntry.row
  simp only at hregistered hswept ⊢
  rw [if_pos hregistered]
  cases swept with
  | none => rfl
  | some t =>
    have ht := hswept t rfl
    simp only [Option.mapM_some, if_pos ht]
    rfl

theorem servers (h : Mirrors m r) : Relational.store.servers r = Memory.store.servers m := by
  let le (x y : String × ServerEntry) : Bool := x.2.endpoint ≤ y.2.endpoint
  let sorted := m.registry.rows.mergeSort le
  have hrows : (r.registry.rows.mergeSort fun a b => a.1 ≤ b.1) =
      sorted.map fun x => (x.1, x.2.row) := by
    rw [h.registry, Table.rows_mapValues]
    refine (List.map_mergeSort fun x hx y hy => ?_).symm
    obtain ⟨hx, -⟩ := h.serversAt x hx
    obtain ⟨hy, -⟩ := h.serversAt y hy
    simp only [le, hx, hy]
  have hservers : ((m.registry.rows.map Prod.snd).mergeSort fun a b => a.endpoint ≤ b.endpoint) =
      sorted.map Prod.snd :=
    (List.map_mergeSort (f := Prod.snd) (r := le) fun _ _ _ _ => rfl).symm
  have hread : ∀ x ∈ sorted, Relational.serverOf (x.1, x.2.row) = .ok x.2 :=
    fun x hx => serverOf_row (h.serversAt x (List.mem_mergeSort.1 hx))
  change (r.registry.rows.mergeSort fun a b => a.1 ≤ b.1).mapM Relational.serverOf = .ok _
  rw [hrows, hservers, List.mapM_map]
  exact mapM_eq_ok hread

theorem markSwept (h : Mirrors m r) (endpoint : String) {t : Instant}
    (ht : Time.hasDate t = true) :
    Mirrors (Memory.store.markSwept endpoint t m).2 (Relational.store.markSwept endpoint t r).2 where
  records := h.records
  registry := by
    change r.registry.modify endpoint (fun s => { s with lastSweptAt := some t }) = _
    rw [h.registry]
    exact Table.modify_mapValues ServerEntry.row
      (g := fun s => { s with lastSweptAt := some t }) (fun _ => rfl) m.registry endpoint
  recordsAt := h.recordsAt
  serversAt := by
    refine Table.forall_rows_modify h.serversAt fun s hs => ⟨hs.1, hs.2.1, ?_⟩
    rintro _ ⟨⟩
    exact ht

end Mirrors

/-- **The relational cache simulates the one in memory.** -/
theorem mirrors_simulates :
    Relational.store.Simulates Mirrors (fun t => Time.hasDate t = true) Memory.store where
  get uri _ _ h := h.get uri
  upsert _ _ _ ht h := ⟨rfl, h.upsert ht⟩
  updateContent uri _ _ _ _ _ ht h :=
    h.update uri (fun _ => rfl) (fun _ => rfl) fun _ he => ⟨he.1, ht⟩
  updateSource uri _ _ _ _ _ ht h :=
    h.update uri (fun _ => rfl) (fun _ => rfl) fun _ he => ⟨he.1, ht⟩
  touchVerified uri _ _ _ _ ht h :=
    h.update uri (fun _ => rfl) (fun _ => rfl) fun _ he => ⟨he.1, ht⟩
  delete uri _ _ h := h.delete uri
  indexedBefore limit _ _ _ h := h.indexedBefore _ limit
  registerServer endpoint _ _ _ ht h := h.registerServer endpoint ht
  servers h := h.servers
  markSwept endpoint _ _ _ ht h := ⟨rfl, h.markSwept endpoint ht⟩

end Cache

end PaperIndex
