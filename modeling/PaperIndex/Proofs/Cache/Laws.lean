import Mathlib.Logic.Function.Basic
import PaperIndex.Cache.Memory
import PaperIndex.Cache.Relational
import PaperIndex.Proofs.Table

/-! # What the calls of a cache do to the entries

A lawful cache is a map from URIs to entries: a call that is answered does to the map what it is
for, one that fails does nothing to it (`Store.Lawful`). Both caches are lawful, and stay so when
calls are made to fail. -/

namespace PaperIndex

namespace Cache

open Time (Instant)
open Function (update)

section Laws
variable {ρ : Type} (entryAt : ρ → String → Option IndexedRecord)

/-- A call with result `r` is answered `a` and gives a URI the entry `slot`, or it fails. -/
def Writes {α : Type} (st : ρ) (r : Except StoreError α × ρ) (a : α) (uri : String)
    (slot : Option IndexedRecord) : Prop :=
  (r.1 = .ok a ∧ entryAt r.2 = update (entryAt st) uri slot) ∨
    (∃ err, r.1 = .error err) ∧ entryAt r.2 = entryAt st

/-- **A lawful cache**, where `entryAt` is the map of a state. -/
structure Store.Lawful (s : Store ρ) : Prop where
  get : ∀ {uri st found}, s.get uri st = .ok found → found = entryAt st uri
  upsert : ∀ r st, Writes entryAt st (s.upsert r st) () r.uri (some r)
  updateContent : ∀ uri hash body t st,
    Writes entryAt st (s.updateContent uri hash body t st) (entryAt st uri).isSome uri
      ((entryAt st uri).map fun r => { r with contentHash := hash, body := body, indexedAt := t })
  updateSource : ∀ uri hash endpoint t st,
    Writes entryAt st (s.updateSource uri hash endpoint t st) (entryAt st uri).isSome uri
      ((entryAt st uri).map fun r =>
        { r with contentHash := hash, endpoint := endpoint, indexedAt := t })
  touchVerified : ∀ uri hash t st,
    Writes entryAt st (s.touchVerified uri hash t st)
      ((entryAt st uri).any (·.contentHash == hash)) uri
      ((entryAt st uri).map fun r => if r.contentHash == hash then { r with indexedAt := t } else r)
  delete : ∀ uri st, Writes entryAt st (s.delete uri st) (entryAt st uri).isSome uri none
  registerServer : ∀ endpoint t st, entryAt (s.registerServer endpoint t st).2 = entryAt st
  markSwept : ∀ endpoint t st, entryAt (s.markSwept endpoint t st).2 = entryAt st

variable {entryAt}

theorem Writes.of_forall {α : Type} {st : ρ} {r : Except StoreError α × ρ} {a : α} {uri : String}
    {slot : Option IndexedRecord} (hanswer : r.1 = .ok a)
    (hentry : ∀ u, entryAt r.2 u = if u = uri then slot else entryAt st u) :
    Writes entryAt st r a uri slot :=
  .inl ⟨hanswer, funext fun u => (hentry u).trans (Function.update_apply _ _ _ _).symm⟩

/-- A call that looks for an entry and writes only what it has found. -/
theorem Writes.found {st : ρ} {r : Except StoreError Bool × ρ} {uri : String}
    {slot : Option IndexedRecord} (h : Writes entryAt st r (entryAt st uri).isSome uri slot)
    (hslot : entryAt st uri = none → slot = none) :
    (r.1 = .ok true ∧ entryAt r.2 = update (entryAt st) uri slot) ∨
      (r.1 ≠ .ok true ∧ entryAt r.2 = entryAt st) := by
  rcases h with ⟨hok, hentry⟩ | ⟨⟨err, herr⟩, hentry⟩
  · cases hfind : entryAt st uri with
    | some e =>
      rw [hfind] at hok
      exact .inl ⟨hok, hentry⟩
    | none =>
      rw [hfind] at hok
      refine .inr ⟨by simp [hok], ?_⟩
      rw [hentry, hslot hfind, ← hfind, Function.update_eq_self]
  · exact .inr ⟨by simp [herr], hentry⟩

theorem Writes.failing {α : Type} {st : ρ} {r : Except StoreError α × ρ} {a : α} {uri : String}
    {slot : Option IndexedRecord} (h : Writes entryAt st r a uri slot) {failing : Prop}
    [Decidable failing] {err : StoreError} :
    Writes entryAt st (if failing then (.error err, st) else r) a uri slot := by
  by_cases hf : failing
  · rw [if_pos hf]
    exact .inr ⟨⟨err, rfl⟩, rfl⟩
  · rwa [if_neg hf]

theorem Store.Lawful.failing {s : Store ρ} (h : s.Lawful entryAt) (calls : List Call) :
    (s.failing calls).Lawful entryAt where
  get := by
    intro uri st found hget
    change (if Call.get ∈ calls then .error (.down Call.get.name) else s.get uri st) = _ at hget
    split at hget
    · cases hget
    · exact h.get hget
  upsert r st := (h.upsert r st).failing
  updateContent uri hash body t st := (h.updateContent uri hash body t st).failing
  updateSource uri hash endpoint t st := (h.updateSource uri hash endpoint t st).failing
  touchVerified uri hash t st := (h.touchVerified uri hash t st).failing
  delete uri st := (h.delete uri st).failing
  registerServer endpoint t st := by
    change entryAt (if _ then (_, st) else s.registerServer endpoint t st).2 = _
    split
    · rfl
    · exact h.registerServer endpoint t st
  markSwept endpoint t st := by
    change entryAt (if _ then (_, st) else s.markSwept endpoint t st).2 = _
    split
    · rfl
    · exact h.markSwept endpoint t st

end Laws

/-! ### In memory -/

namespace Memory

/-- The entry of a URI. -/
def entryAt (m : Memory) (uri : String) : Option IndexedRecord := m.records.find? uri

theorem fst_update (m : Memory) (uri : String) (test : IndexedRecord → Bool)
    (f : IndexedRecord → IndexedRecord) :
    (m.update uri test f).1 = .ok ((m.entryAt uri).any test) := by
  unfold Memory.update entryAt
  cases m.records.find? uri with
  | none => rfl
  | some r =>
    rw [Option.any_some]
    cases htest : test r <;> simp only [htest] <;> rfl

theorem entryAt_update (m : Memory) (uri : String) (test : IndexedRecord → Bool)
    (f : IndexedRecord → IndexedRecord) (u : String) :
    (m.update uri test f).2.entryAt u =
      if u = uri then (m.entryAt uri).map fun r => if test r then f r else r else m.entryAt u := by
  unfold Memory.update entryAt
  by_cases hu : u = uri
  · subst hu
    cases hfind : m.records.find? u with
    | none => simp [hfind]
    | some r =>
      by_cases htest : test r = true <;> simp [htest, hfind, Table.find?_modify]
  · rw [if_neg hu]
    cases hfind : m.records.find? uri with
    | none => rfl
    | some r =>
      by_cases htest : test r = true <;> simp [htest, hu, Table.find?_modify]

theorem writes_update (m : Memory) (uri : String) (test : IndexedRecord → Bool)
    (f : IndexedRecord → IndexedRecord) :
    Writes entryAt m (m.update uri test f) ((m.entryAt uri).any test) uri
      ((m.entryAt uri).map fun r => if test r then f r else r) :=
  .of_forall (m.fst_update uri test f) (m.entryAt_update uri test f)

theorem lawful : store.Lawful entryAt where
  get h := (Except.ok.inj h).symm
  upsert r m := .of_forall rfl (Table.find?_insert m.records r.uri r)
  updateContent uri hash body t m := by
    have h := m.writes_update uri (fun _ => true) fun r =>
      { r with contentHash := hash, body := body, indexedAt := t }
    simp only [Option.any_true, if_true] at h
    exact h
  updateSource uri hash endpoint t m := by
    have h := m.writes_update uri (fun _ => true) fun r =>
      { r with contentHash := hash, endpoint := endpoint, indexedAt := t }
    simp only [Option.any_true, if_true] at h
    exact h
  touchVerified uri hash t m := m.writes_update uri (fun r => r.contentHash == hash) _
  delete uri m := .of_forall rfl (Table.find?_erase m.records uri)
  registerServer endpoint t m := by
    unfold store
    simp only
    split <;> rfl
  markSwept _ _ _ := rfl

end Memory

/-! ### As a relation -/

/-- The entry of a row, whether or not its instant has a date. -/
def RecordRow.entry (uri : String) (row : RecordRow) : IndexedRecord :=
  ⟨uri, row.cid, row.endpoint, row.typeName, row.body, row.indexedAt⟩

namespace Relational

/-- The entry of a URI. -/
def entryAt (r : Relational) (uri : String) : Option IndexedRecord :=
  (r.records.find? uri).map (RecordRow.entry uri)

/-- An edit of the rows is the edit of the entries that it amounts to. -/
theorem writes_update (r : Relational) (uri : String) {test : RecordRow → Bool}
    {f : RecordRow → RecordRow} {edit : IndexedRecord → IndexedRecord}
    (hedit : ∀ row, RecordRow.entry uri (if test row then f row else row) =
      edit (row.entry uri)) :
    Writes entryAt r (r.update uri test f) ((r.records.find? uri).any test) uri
      ((r.entryAt uri).map edit) := by
  unfold Relational.update
  rw [Table.any_rows]
  cases hfind : r.records.find? uri with
  | none =>
    refine .of_forall rfl fun u => ?_
    by_cases hu : u = uri
    · simp [entryAt, hu, hfind]
    · rw [if_neg hu]
      rfl
  | some row =>
    rw [Option.any_some]
    cases htest : test row with
    | false =>
      have hsame := hedit row
      rw [htest, if_neg Bool.false_ne_true] at hsame
      refine .of_forall rfl fun u => ?_
      by_cases hu : u = uri
      · simp [entryAt, hu, hfind, ← hsame]
      · rw [if_neg hu]
        rfl
    | true =>
      refine .of_forall rfl fun u => ?_
      have hfind' := Table.find?_modify r.records uri (fun row => if test row then f row else row) u
      by_cases hu : u = uri
      · subst hu
        rw [if_pos rfl, hfind] at hfind'
        simp [entryAt, hfind', hfind, hedit]
      · rw [if_neg hu] at hfind' ⊢
        simp [entryAt, hfind']

theorem get_eq_ok {uri : String} {r : Relational} {found : Option IndexedRecord}
    (h : store.get uri r = .ok found) : found = r.entryAt uri := by
  unfold store at h
  simp only at h
  unfold entryAt
  cases hfind : r.records.find? uri with
  | none =>
    rw [hfind] at h
    exact (Except.ok.inj h).symm
  | some row =>
    simp only [hfind] at h
    unfold recordOf dated at h
    by_cases hdate : Time.hasDate row.indexedAt = true
    · simp only [hdate, if_true] at h
      exact (Except.ok.inj h).symm
    · simp only [hdate] at h
      cases h

theorem lawful : store.Lawful entryAt where
  get := get_eq_ok
  upsert e r := by
    refine .of_forall rfl fun u => ?_
    have hfind := Table.find?_insert r.records e.uri
      ⟨e.contentHash, e.endpoint, e.typeName, e.body, e.indexedAt⟩ u
    change ((r.records.insert e.uri _).find? u).map (RecordRow.entry u) = _
    rw [hfind]
    by_cases hu : u = e.uri
    · rw [if_pos hu, if_pos hu, hu]
      rfl
    · rw [if_neg hu, if_neg hu]
      rfl
  updateContent uri hash body t r := by
    rw [entryAt, Option.isSome_map, ← Option.any_true]
    exact r.writes_update uri fun _ => rfl
  updateSource uri hash endpoint t r := by
    rw [entryAt, Option.isSome_map, ← Option.any_true]
    exact r.writes_update uri fun _ => rfl
  touchVerified uri hash t r := by
    rw [entryAt, Option.any_map]
    refine r.writes_update uri fun row => ?_
    rw [apply_ite (RecordRow.entry uri)]
    rfl
  delete uri r := by
    refine .of_forall ?_ fun u => ?_
    · rw [entryAt, Option.isSome_map, Table.isSome_find?]
      rfl
    · change ((r.records.erase uri).find? u).map (RecordRow.entry u) = _
      rw [Table.find?_erase]
      split <;> rfl
  registerServer endpoint t r := by
    unfold store
    simp only
    split <;> rfl
  markSwept _ _ _ := rfl

end Relational

end Cache

end PaperIndex
