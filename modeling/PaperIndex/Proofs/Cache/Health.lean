import PaperIndex.Proofs.Cache.Scan

/-! # Healthy caches

A lawful cache may fail. A healthy one answers: on its sound states no lookup, scan or update fails,
and every update leaves a sound state (`Store.Healthy`). The cache in memory is healthy on all its
states (`Memory.healthy`), the relational one on those whose rows have dates
(`Relational.healthy`). -/

namespace PaperIndex.Cache

open Time (Instant)
open Function (update)

section Healthy
variable {ρ : Type} (entryAt : ρ → String → Option IndexedRecord)
  (serverAt : ρ → String → Option ServerEntry) (Sound : ρ → Prop)

/-- A call is answered, leaves a sound state, and touches no server. -/
structure Answered {α : Type} (st : ρ) (r : Except StoreError α × ρ) : Prop where
  answer : ∃ a, r.1 = .ok a
  sound : Sound r.2
  servers : serverAt r.2 = serverAt st

/-- A server that has been swept. -/
def sweptAt (now : Instant) (server : ServerEntry) : ServerEntry :=
  { server with lastSweptAt := some now }

/-- **A healthy cache** at an instant, where `serverAt` are the servers of a state: what is asked of
it by checks, refreshes and sweeps does not fail. -/
structure Store.Healthy (s : Store ρ) (now : Instant) : Prop where
  lawful : s.Lawful entryAt
  get : ∀ uri {st}, Sound st → s.get uri st = .ok (entryAt st uri)
  updateContent : ∀ uri hash body {st}, Sound st →
    Answered serverAt Sound st (s.updateContent uri hash body now st)
  touchVerified : ∀ uri hash {st}, Sound st →
    Answered serverAt Sound st (s.touchVerified uri hash now st)
  indexedBefore : ∀ cutoff {st}, Sound st → Named (entryAt st) →
    ∃ all, AllBefore (entryAt st) cutoff all ∧
      ∀ limit, s.indexedBefore cutoff limit st = .ok (all.take limit)
  /-- A sweep is noted at the server, if it is registered. -/
  markSwept : ∀ endpoint {st}, Sound st → Sound (s.markSwept endpoint now st).2 ∧
    serverAt (s.markSwept endpoint now st).2 =
      update (serverAt st) endpoint ((serverAt st endpoint).map (sweptAt now))

variable {entryAt}

/-- A lawful call that is answered writes. -/
theorem Writes.of_answer {α : Type} {st : ρ} {r : Except StoreError α × ρ} {a : α} {uri : String}
    {slot : Option IndexedRecord} (h : Writes entryAt st r a uri slot)
    (hanswer : ∃ a, r.1 = .ok a) : r.1 = .ok a ∧ entryAt r.2 = update (entryAt st) uri slot := by
  refine h.resolve_right ?_
  rintro ⟨⟨err, herr⟩, -⟩
  obtain ⟨a', ha'⟩ := hanswer
  cases herr.symm.trans ha'

end Healthy

/-! ### In memory -/

namespace Memory

/-- The server under an endpoint. -/
def serverAt (m : Memory) (endpoint : String) : Option ServerEntry := m.registry.find? endpoint

theorem registry_update (m : Memory) (uri : String) (test : IndexedRecord → Bool)
    (f : IndexedRecord → IndexedRecord) : (m.update uri test f).2.registry = m.registry := by
  unfold Memory.update
  cases m.records.find? uri with
  | none => rfl
  | some r =>
    simp only
    split <;> rfl

theorem answered_update (m : Memory) (uri : String) (test : IndexedRecord → Bool)
    (f : IndexedRecord → IndexedRecord) :
    Answered serverAt (fun _ => True) m (m.update uri test f) where
  answer := ⟨_, m.fst_update uri test f⟩
  sound := trivial
  servers := congrArg Table.find? (m.registry_update uri test f)

/-- **The cache in memory is healthy** on all its states. -/
theorem healthy (now : Instant) : store.Healthy entryAt serverAt (fun _ => True) now where
  lawful := lawful
  get _ _ _ := rfl
  updateContent uri _ _ m _ := m.answered_update uri _ _
  touchVerified uri _ m _ := m.answered_update uri _ _
  indexedBefore cutoff _ _ hnamed := exists_allBefore (keyed_iff.2 hnamed) cutoff
  markSwept endpoint m _ := by
    refine ⟨trivial, funext fun endpoint' => ?_⟩
    rw [Function.update_apply]
    refine (Table.find?_modify m.registry endpoint (sweptAt now) endpoint').trans ?_
    split
    · next heq => rw [heq]; rfl
    · rfl

end Memory

/-! ### As a relation -/

/-- The server of a row, whether or not its instants have dates. -/
def ServerRow.entry (endpoint : String) (row : ServerRow) : ServerEntry :=
  ⟨endpoint, row.registeredAt, row.lastSweptAt⟩

namespace Relational

/-- The server under an endpoint. -/
def serverAt (r : Relational) (endpoint : String) : Option ServerEntry :=
  (r.registry.find? endpoint).map (ServerRow.entry endpoint)

theorem get_of_dated {r : Relational} (h : r.Dated) (uri : String) :
    store.get uri r = .ok (r.entryAt uri) := by
  unfold store entryAt
  simp only
  cases hfind : r.records.find? uri with
  | none => rfl
  | some row =>
    have hrow : recordOf (uri, row) = .ok (row.entry uri) :=
      recordOf_of_hasDate (h _ (Table.find?_eq_some_iff.1 hfind))
    simp only [hrow]
    rfl

theorem answered_update {r : Relational} (h : r.Dated) (uri : String) (test : RecordRow → Bool)
    (f : RecordRow → RecordRow) (hf : ∀ row, Time.hasDate (f row).indexedAt = true) :
    Answered serverAt Dated r (r.update uri test f) := by
  unfold Relational.update
  split
  · refine ⟨⟨true, rfl⟩, Table.forall_rows_modify h fun row hrow => ?_, rfl⟩
    simp only
    split
    · exact hf row
    · exact hrow
  · exact ⟨⟨false, rfl⟩, h, rfl⟩

/-- **The relational cache is healthy** on the states whose rows have dates. -/
theorem healthy {now : Instant} (hnow : Time.hasDate now = true) :
    store.Healthy entryAt serverAt Dated now where
  lawful := lawful
  get uri _ hdated := get_of_dated hdated uri
  updateContent uri hash body r hdated :=
    answered_update hdated uri (fun _ => true)
      (fun row => { row with cid := hash, body := body, indexedAt := now }) fun _ => hnow
  touchVerified uri hash r hdated :=
    answered_update hdated uri (fun row => row.cid == hash)
      (fun row => { row with indexedAt := now }) fun _ => hnow
  indexedBefore cutoff _ hdated _ := exists_allBefore hdated cutoff
  markSwept endpoint r hdated := by
    refine ⟨hdated, funext fun endpoint' => ?_⟩
    rw [Function.update_apply]
    have hfind := Table.find?_modify r.registry endpoint
      (fun row => { row with lastSweptAt := some now }) endpoint'
    refine (congrArg (Option.map (ServerRow.entry endpoint')) hfind).trans ?_
    unfold serverAt
    split
    · next heq =>
      rw [heq, Option.map_map, Option.map_map]
      rfl
    · rfl

end Relational

end PaperIndex.Cache
