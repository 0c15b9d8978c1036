import PaperIndex.Cache.Memory
import PaperIndex.Cache.Relational
import PaperIndex.Counter.Memory
import PaperIndex.Graph.Memory

/-! # Stores whose failures change nothing

A store is atomic if a call of it that fails leaves its state alone; a call that finds nothing to
change must leave it alone as well, since the engines report that as a failure. The stores in memory
and the relational cache are atomic, and an atomic store of which calls are made to fail is. -/

namespace PaperIndex

theorem map_eq_error_iff {ε α β : Type} {f : α → β} {r : Except ε α} {err : ε} :
    r.map f = .error err ↔ r = .error err := by
  cases r <;> simp [Except.map]

theorem mapError_eq_error_iff {ε ε' α : Type} {f : ε → ε'} {r : Except ε α} {err : ε'} :
    r.mapError f = .error err ↔ ∃ e, r = .error e ∧ f e = err := by
  cases r with
  | error e =>
    refine ⟨fun h => ⟨e, rfl, Except.error.inj h⟩, ?_⟩
    rintro ⟨e', he, rfl⟩
    obtain rfl := Except.error.inj he
    rfl
  | ok a =>
    refine iff_of_false (fun h => ?_) ?_
    · cases h
    · rintro ⟨e, he, -⟩
      cases he

/-- A call that is made to fail and one that is not. -/
theorem snd_eq_of_failing {ε α σ : Type} {P : Except ε α → Prop} {failing : Prop}
    [Decidable failing] {err : ε} {st : σ} {r : Except ε α × σ} (hr : P r.1 → r.2 = st)
    (h : P (if failing then (.error err, st) else r).1) :
    (if failing then (.error err, st) else r).2 = st := by
  by_cases hf : failing
  · rw [if_pos hf]
  · rw [if_neg hf] at h ⊢
    exact hr h

/-! ### Tables -/

namespace Table

variable {κ α : Type}

theorem filter_eq_self {p : κ → α → Bool} {t : Table κ α} (h : ∀ r ∈ t.rows, p r.1 r.2 = true) :
    t.filter p = t :=
  Table.ext ((t.rows_filter p).trans (List.filter_eq_self.2 h))

theorem erase_eq_self [DecidableEq κ] {t : Table κ α} {k : κ} (h : t.find? k = none) :
    t.erase k = t := by
  refine filter_eq_self fun r hr => ?_
  have hne : r.1 ≠ k := by
    rintro rfl
    exact find?_eq_none_iff.1 h (List.mem_map_of_mem hr)
  simpa using hne

end Table

/-! ### Caches -/

namespace Cache

open Time (Instant)

/-- The calls of the cache that fail change nothing. -/
structure Store.Atomic {ρ : Type} (s : Store ρ) : Prop where
  upsert : ∀ {r st e}, (s.upsert r st).1 = .error e → (s.upsert r st).2 = st
  updateContent : ∀ {uri hash body t st}, (s.updateContent uri hash body t st).1 ≠ .ok true →
    (s.updateContent uri hash body t st).2 = st
  updateSource : ∀ {uri hash endpoint t st}, (s.updateSource uri hash endpoint t st).1 ≠ .ok true →
    (s.updateSource uri hash endpoint t st).2 = st
  touchVerified : ∀ {uri hash t st}, (s.touchVerified uri hash t st).1 ≠ .ok true →
    (s.touchVerified uri hash t st).2 = st
  delete : ∀ {uri st}, (s.delete uri st).1 ≠ .ok true → (s.delete uri st).2 = st
  registerServer : ∀ {endpoint t st e}, (s.registerServer endpoint t st).1 = .error e →
    (s.registerServer endpoint t st).2 = st
  markSwept : ∀ {endpoint t st e}, (s.markSwept endpoint t st).1 = .error e →
    (s.markSwept endpoint t st).2 = st

/-- An update that has failed or found nothing has left the cache alone. -/
theorem Store.Atomic.eq_of_updateContent {ρ : Type} {s : Store ρ} (h : s.Atomic)
    {uri hash body : String} {t : Instant} {st st' : ρ} {r : Except StoreError Bool}
    (hupdate : s.updateContent uri hash body t st = (r, st')) (hr : r ≠ .ok true) : st' = st := by
  have hsame := h.updateContent (show (s.updateContent uri hash body t st).1 ≠ .ok true by
    rwa [hupdate])
  rwa [hupdate] at hsame

theorem Store.Atomic.failing {ρ : Type} {s : Store ρ} (h : s.Atomic) (calls : List Call) :
    (s.failing calls).Atomic where
  upsert := snd_eq_of_failing (P := (· = .error _)) h.upsert
  updateContent := snd_eq_of_failing (P := (· ≠ .ok true)) h.updateContent
  updateSource := snd_eq_of_failing (P := (· ≠ .ok true)) h.updateSource
  touchVerified := snd_eq_of_failing (P := (· ≠ .ok true)) h.touchVerified
  delete := snd_eq_of_failing (P := (· ≠ .ok true)) h.delete
  registerServer := snd_eq_of_failing (P := (· = .error _)) h.registerServer
  markSwept := snd_eq_of_failing (P := (· = .error _)) h.markSwept

namespace Memory

theorem snd_update_of_ne {m : Memory} {uri : String} {test : IndexedRecord → Bool}
    {f : IndexedRecord → IndexedRecord} (h : (m.update uri test f).1 ≠ .ok true) :
    (m.update uri test f).2 = m := by
  unfold update at h ⊢
  cases hfind : m.records.find? uri with
  | none => rfl
  | some r =>
    simp only [hfind] at h ⊢
    by_cases htest : test r = true
    · rw [if_pos htest] at h
      exact absurd rfl h
    · rw [if_neg htest]

theorem atomic : store.Atomic where
  upsert := nofun
  updateContent := snd_update_of_ne
  updateSource := snd_update_of_ne
  touchVerified := snd_update_of_ne
  delete := by
    intro uri m h
    have hnone : m.records.find? uri = none := by
      cases hfind : m.records.find? uri with
      | none => rfl
      | some r => exact absurd (congrArg (fun o : Option _ => Except.ok o.isSome) hfind) h
    have herase := Table.erase_eq_self hnone
    change { m with records := m.records.erase uri } = m
    rw [herase]
  registerServer := by
    intro endpoint t m e h
    unfold store at h
    simp only at h
    split at h <;> cases h
  markSwept := nofun

end Memory

namespace Relational

theorem snd_update_of_ne {r : Relational} {uri : String} {test : RecordRow → Bool}
    {f : RecordRow → RecordRow} (h : (r.update uri test f).1 ≠ .ok true) :
    (r.update uri test f).2 = r := by
  unfold update at h ⊢
  split at h
  · exact absurd rfl h
  · next hnone => rw [if_neg hnone]

theorem atomic : store.Atomic where
  upsert := nofun
  updateContent := snd_update_of_ne
  updateSource := snd_update_of_ne
  touchVerified := snd_update_of_ne
  delete := by
    intro uri r h
    have hnone : r.records.find? uri = none := by
      refine Table.find?_eq_none_iff.2 fun hmem => h ?_
      exact congrArg Except.ok (Table.contains_iff.2 hmem)
    have herase := Table.erase_eq_self hnone
    change { r with records := r.records.erase uri } = r
    rw [herase]
  registerServer := by
    intro endpoint t r e h
    unfold store at h
    simp only at h
    split at h <;> cases h
  markSwept := nofun

end Relational

end Cache

/-! ### Counters -/

namespace Counter

/-- A pipeline that fails changes nothing. -/
def Store.Atomic {σ : Type} (s : Store σ) : Prop :=
  ∀ {p st e}, (s.exec p st).1 = .error e → (s.exec p st).2 = st

theorem Store.Atomic.failing {σ : Type} {s : Store σ} (h : s.Atomic) (calls : List Call) :
    (s.failing calls).Atomic :=
  snd_eq_of_failing (P := (· = .error _)) h

theorem Memory.atomic : Memory.store.Atomic := Memory.exec_snd_of_error

end Counter

/-! ### Citation graphs -/

namespace Graph

/-- A call of a graph. -/
inductive Call
  | addPaper
  | removePaper
  | isPaper
  | merge
  | citing
  | countCiting
  | references
  | countReferences
  | deleteFor
  | coCited
deriving DecidableEq, Repr

/-- The name of a call. -/
def Call.name : Call → String
  | .addPaper => "upsert_entity"
  | .removePaper => "remove_entity"
  | .isPaper => "entity_exists"
  | .merge => "merge_citations"
  | .citing => "citing"
  | .countCiting => "count_citing"
  | .references => "references"
  | .countReferences => "count_references"
  | .deleteFor => "delete_citations_for"
  | .coCited => "co_cited"

/-- The graph of which some calls have been made to fail. A failing call changes nothing. -/
def Store.failing {γ : Type} (calls : List Call) (s : Store γ) : Store γ :=
  let ask {α : Type} (c : Call) (f : γ → Except StoreError α) (st : γ) : Except StoreError α :=
    if c ∈ calls then .error (.down c.name) else f st
  let act {α : Type} (c : Call) (f : γ → Except StoreError α × γ) (st : γ) :
      Except StoreError α × γ :=
    if c ∈ calls then (.error (.down c.name), st) else f st
  { addPaper := fun uri => act .addPaper (s.addPaper uri)
    removePaper := fun uri => act .removePaper (s.removePaper uri)
    isPaper := fun uri => ask .isPaper (s.isPaper uri)
    merge := fun b => act .merge (s.merge b)
    citing := fun uri limit offset => ask .citing (s.citing uri limit offset)
    countCiting := fun uri => ask .countCiting (s.countCiting uri)
    references := fun uri limit offset => ask .references (s.references uri limit offset)
    countReferences := fun uri => ask .countReferences (s.countReferences uri)
    deleteFor := fun uri => act .deleteFor (s.deleteFor uri)
    coCited := fun uri threshold => ask .coCited (s.coCited uri threshold) }

/-- The calls of the graph that fail change nothing. -/
structure Store.Atomic {γ : Type} (s : Store γ) : Prop where
  addPaper : ∀ {uri st e}, (s.addPaper uri st).1 = .error e → (s.addPaper uri st).2 = st
  removePaper : ∀ {uri st e}, (s.removePaper uri st).1 = .error e → (s.removePaper uri st).2 = st
  merge : ∀ {b st e}, (s.merge b st).1 = .error e → (s.merge b st).2 = st
  deleteFor : ∀ {uri st e}, (s.deleteFor uri st).1 = .error e → (s.deleteFor uri st).2 = st

theorem Store.Atomic.failing {γ : Type} {s : Store γ} (h : s.Atomic) (calls : List Call) :
    (s.failing calls).Atomic where
  addPaper := snd_eq_of_failing (P := (· = .error _)) h.addPaper
  removePaper := snd_eq_of_failing (P := (· = .error _)) h.removePaper
  merge := snd_eq_of_failing (P := (· = .error _)) h.merge
  deleteFor := snd_eq_of_failing (P := (· = .error _)) h.deleteFor

theorem Memory.atomic : Memory.store.Atomic where
  addPaper := nofun
  removePaper := nofun
  merge := nofun
  deleteFor := nofun

end Graph

end PaperIndex
