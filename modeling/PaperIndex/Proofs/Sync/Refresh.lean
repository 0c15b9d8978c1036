import PaperIndex.Proofs.Sync.Types
import PaperIndex.Sync.Script

/-! # Refreshes while something else writes

Between the moment when a refresh reads an entry and the moment when it writes it, the fetch may
leave the cache in any state: the entry may have been rewritten or deleted, and so may any other.
What a refresh then does is compared with the state that the fetch has left (`afterFetch`), not with
the one it started from.

`RefreshContract` says what can be relied on whatever has interfered. It holds of every lawful cache
whose failing calls change nothing (`refreshContract_of_lawful`), hence of both caches, whatever
calls of them have been made to fail (`refreshContract`). -/

namespace PaperIndex.Sync.Engine

open Time (Instant)
open Function (update)

variable {ρ ω : Type}

/-! ### What is compared -/

/-- A refresh has read the entry of the URI and has been answered with the authoritative record. -/
structure Compares (e : Engine ρ ω) (uri : String) (st : State ρ ω) (entry : IndexedRecord)
    (f : Fetched) : Prop where
  read : e.cache.get uri st.cache = .ok (some entry)
  answered : (e.fetched uri entry st).1 = .ok (some f)

/-- **The state after the fetch** of a refresh, with everything that has interfered. Without an
entry there is no fetch. -/
def afterFetch (e : Engine ρ ω) (uri : String) (st : State ρ ω) : State ρ ω :=
  match e.cache.get uri st.cache with
  | .ok (some entry) => (e.fetched uri entry st).2
  | _ => st

theorem afterFetch_of_get {e : Engine ρ ω} {uri : String} {st : State ρ ω} {entry : IndexedRecord}
    (h : e.cache.get uri st.cache = .ok (some entry)) :
    e.afterFetch uri st = (e.fetched uri entry st).2 := by
  unfold afterFetch
  rw [h]

section Compares
variable {e : Engine ρ ω} {now : Instant} {uri : String} {st : State ρ ω} {entry : IndexedRecord}
  {f : Fetched} (h : e.Compares uri st entry f)
include h

theorem Compares.refresh_eq :
    e.refresh now uri st =
      if f.cid = entry.contentHash then
        (.ok ⟨false, entry.contentHash, entry.contentHash⟩, e.afterFetch uri st)
      else e.replace now uri entry f (e.afterFetch uri st) := by
  have hanswer : (e.repository.fetch uri (hintOf entry.endpoint) st.world st.cache).1 =
      .ok (some f) := h.answered
  rw [refresh, h.read, afterFetch_of_get h.read]
  simp only [hanswer]
  rfl

/-- An entry with the authoritative content identifier is confirmed. -/
theorem Compares.refresh_same (hcid : f.cid = entry.contentHash) :
    e.refresh now uri st = (.ok ⟨false, f.cid, f.cid⟩, e.afterFetch uri st) := by
  rw [h.refresh_eq, if_pos hcid, hcid]

/-- An acceptable record with another content identifier is written where there is an entry. -/
theorem Compares.refresh_other (hcid : f.cid ≠ entry.contentHash) {record : Record}
    (hvalue : Record.ofJson f.value = .ok record) :
    (e.refresh now uri st).1 = (foundOr uri (e.cache.updateContent uri f.cid record.toText now
      (e.afterFetch uri st).cache).1).map fun _ => ⟨true, entry.contentHash, f.cid⟩ := by
  rw [h.refresh_eq, if_neg hcid, replace, hvalue]

end Compares

/-! ### How a refresh ends -/

/-- **The ends of a refresh** as the entries show them. -/
inductive Ends (e : Engine ρ ω) (entryAt : ρ → String → Option IndexedRecord) (now : Instant)
    (uri : String) (st : State ρ ω) : Except IndexError Refresh × State ρ ω → Prop
  | failed {err st'} (hsame : st' = e.afterFetch uri st) :
    Ends e entryAt now uri st (.error err, st')
  | confirmed {entry f} (hcompares : e.Compares uri st entry f) (hcid : f.cid = entry.contentHash) :
    Ends e entryAt now uri st (.ok ⟨false, f.cid, f.cid⟩, e.afterFetch uri st)
  | changed {entry f record left cache} (hcompares : e.Compares uri st entry f)
    (hcid : f.cid ≠ entry.contentHash) (hvalue : Record.ofJson f.value = .ok record)
    (hupdate : (e.cache.updateContent uri f.cid record.toText now (e.afterFetch uri st).cache).1 =
      .ok true)
    (hleft : entryAt (e.afterFetch uri st).cache uri = some left)
    (hentries : entryAt cache = update (entryAt (e.afterFetch uri st).cache) uri
      (some { left with contentHash := f.cid, body := record.toText, indexedAt := now })) :
    Ends e entryAt now uri st
      (.ok ⟨true, entry.contentHash, f.cid⟩, { e.afterFetch uri st with cache })

/-- **A refresh** over a lawful and atomic cache has one of these ends. -/
theorem refresh_ends {e : Engine ρ ω} {entryAt : ρ → String → Option IndexedRecord}
    (hc : e.cache.Lawful entryAt) (ha : e.cache.Atomic) (now : Instant) (uri : String)
    (st : State ρ ω) : e.Ends entryAt now uri st (e.refresh now uri st) := by
  have hcases := e.refresh_cases now uri st
  generalize e.refresh now uri st = x at hcases ⊢
  -- With an entry the fetch leaves the state `st'`; without one there is none.
  have hafter : ∀ {entry answer st'}, e.cache.get uri st.cache = .ok (some entry) →
      e.fetched uri entry st = (answer, st') → st' = e.afterFetch uri st := by
    intro entry answer st' hget hfetch
    rw [afterFetch_of_get hget, hfetch]
  cases hcases with
  | unread hget => exact .failed (by rw [afterFetch, hget])
  | unknown hget => exact .failed (by rw [afterFetch, hget])
  | unreachable hget hfetch => exact .failed (hafter hget hfetch)
  | missing hget hfetch => exact .failed (hafter hget hfetch)
  | confirmed hget hfetch hcid =>
    obtain rfl := hafter hget hfetch
    exact hcid ▸ .confirmed ⟨hget, congrArg Prod.fst hfetch⟩ hcid
  | unacceptable hget hfetch hcid hvalue => exact .failed (hafter hget hfetch)
  | @written entry st' f record r cache hget hfetch hcid hvalue hupdate =>
    obtain rfl := hafter hget hfetch
    by_cases hr : r = .ok true
    · subst hr
      have hwrites := hc.updateContent uri f.cid record.toText now (e.afterFetch uri st).cache
      rw [hupdate] at hwrites
      rcases hwrites with ⟨hfound, hentries⟩ | ⟨⟨err, herr⟩, -⟩
      · obtain ⟨left, hleft⟩ := Option.isSome_iff_exists.1 (Except.ok.inj hfound).symm
        rw [hleft] at hentries
        exact .changed ⟨hget, congrArg Prod.fst hfetch⟩ hcid hvalue (by rw [hupdate]) hleft hentries
      · cases herr
    · obtain ⟨err, herr⟩ := (foundOr_eq_error_iff uri).2 hr
      rw [herr]
      exact .failed (by rw [ha.eq_of_updateContent hupdate hr])

section Ends
variable {e : Engine ρ ω} {entryAt : ρ → String → Option IndexedRecord} {now : Instant}
  {uri : String} {st : State ρ ω} {x : Except IndexError Refresh × State ρ ω}
  (h : e.Ends entryAt now uri st x)
include h

/-- A confirmation writes nothing. -/
theorem Ends.of_confirmed {previous current : String}
    (hok : x.1 = .ok ⟨false, previous, current⟩) :
    x.2 = e.afterFetch uri st ∧
      ∃ entry f, e.Compares uri st entry f ∧ previous = f.cid ∧ current = f.cid := by
  cases h with
  | failed hsame => cases hok
  | confirmed hcompares hcid =>
    cases hok
    exact ⟨rfl, _, _, hcompares, rfl, rfl⟩
  | changed => cases hok

/-- A change is a change of one entry. -/
theorem Ends.of_changed {previous current : String}
    (hok : x.1 = .ok ⟨true, previous, current⟩) :
    ∃ entry f record left, e.Compares uri st entry f ∧ Record.ofJson f.value = .ok record ∧
      previous = entry.contentHash ∧ current = f.cid ∧
      entryAt (e.afterFetch uri st).cache uri = some left ∧
      x.2.world = (e.afterFetch uri st).world ∧
      entryAt x.2.cache = update (entryAt (e.afterFetch uri st).cache) uri
        (some { left with contentHash := f.cid, body := record.toText, indexedAt := now }) := by
  cases h with
  | failed hsame => cases hok
  | confirmed => cases hok
  | changed hcompares hcid hvalue hupdate hleft hentries =>
    cases hok
    exact ⟨_, _, _, _, hcompares, hvalue, rfl, rfl, hleft, rfl, hentries⟩

/-- A failure writes nothing. -/
theorem Ends.of_failed {err : IndexError} (herr : x.1 = .error err) :
    x.2 = e.afterFetch uri st := by
  cases h with
  | failed hsame => exact hsame
  | confirmed => cases herr
  | changed => cases herr

/-- No entry is created. -/
theorem Ends.absent (hnone : entryAt (e.afterFetch uri st).cache uri = none) :
    entryAt x.2.cache uri = none := by
  cases h with
  | failed hsame => rwa [hsame]
  | confirmed => exact hnone
  | changed hcompares hcid hvalue hupdate hleft => cases hnone.symm.trans hleft

/-- A success has compared, and has had nothing to write or has written. -/
theorem Ends.of_ok {r : Refresh} (hok : x.1 = .ok r) :
    ∃ entry f, e.Compares uri st entry f ∧ (f.cid = entry.contentHash ∨
      ∃ record, Record.ofJson f.value = .ok record ∧
        (e.cache.updateContent uri f.cid record.toText now (e.afterFetch uri st).cache).1 =
          .ok true) := by
  cases h with
  | failed hsame => cases hok
  | confirmed hcompares hcid => exact ⟨_, _, hcompares, .inl hcid⟩
  | changed hcompares hcid hvalue hupdate => exact ⟨_, _, hcompares, .inr ⟨_, hvalue, hupdate⟩⟩

end Ends

/-! ### Undisturbed refreshes -/

/-- Every fetch of the URI is answered with one record, and nothing interferes. -/
def Steady (e : Engine ρ ω) (uri : String) (f : Fetched) (st : State ρ ω) : Prop :=
  ∀ hint, (e.repository.fetch uri hint st.world st.cache).1 = .ok (some f) ∧
    (e.repository.fetch uri hint st.world st.cache).2.2 = st.cache

section Steady
variable {e : Engine ρ ω} {uri : String} {f : Fetched} {st : State ρ ω} (h : e.Steady uri f st)
include h

theorem Steady.compares {entry : IndexedRecord}
    (hget : e.cache.get uri st.cache = .ok (some entry)) :
    e.Compares uri st entry f ∧ (e.afterFetch uri st).cache = st.cache := by
  rw [afterFetch_of_get hget]
  exact ⟨⟨hget, (h _).1⟩, (h _).2⟩

theorem Steady.eq_of_compares {entry : IndexedRecord} {g : Fetched}
    (hcompares : e.Compares uri st entry g) : g = f := by
  have hanswer := hcompares.answered
  rw [(h.compares hcompares.read).1.answered] at hanswer
  exact (Option.some.inj (Except.ok.inj hanswer)).symm

/-- After an undisturbed success the entry has the authoritative content identifier. -/
theorem Steady.contentHash_of_ok {entryAt : ρ → String → Option IndexedRecord} {now : Instant}
    {x : Except IndexError Refresh × State ρ ω} (hc : e.cache.Lawful entryAt)
    (hends : e.Ends entryAt now uri st x) {r : Refresh} (hok : x.1 = .ok r) :
    ∃ entry, entryAt x.2.cache uri = some entry ∧ f.cid = entry.contentHash := by
  cases hends with
  | failed hsame => cases hok
  | @confirmed entry g hcompares hcid =>
    obtain rfl := h.eq_of_compares hcompares
    refine ⟨entry, ?_, hcid⟩
    rw [(h.compares hcompares.read).2]
    exact (hc.get hcompares.read).symm
  | changed hcompares hcid hvalue hupdate hleft hentries =>
    obtain rfl := h.eq_of_compares hcompares
    exact ⟨_, (congrFun hentries uri).trans (Function.update_self ..), rfl⟩

end Steady

/-! ### The contract -/

/-- **What a refresh guarantees**, whatever has been done to the cache while the fetch was under
way. -/
structure RefreshContract (e : Engine ρ ω) (entryAt : ρ → String → Option IndexedRecord)
    (now : Instant) (uri : String) (st : State ρ ω) : Prop where
  /-- A confirmation writes nothing, and both content identifiers are the authoritative one. -/
  confirmed : ∀ {previous current}, (e.refresh now uri st).1 = .ok ⟨false, previous, current⟩ →
    (e.refresh now uri st).2 = e.afterFetch uri st ∧
    ∃ entry f, e.Compares uri st entry f ∧ previous = f.cid ∧ current = f.cid
  /-- A change replaces hash, body and instant of the entry as the fetch has left it. Its endpoint
  and its kind stay, and so do all other entries. -/
  changed : ∀ {previous current}, (e.refresh now uri st).1 = .ok ⟨true, previous, current⟩ →
    ∃ entry f record left, e.Compares uri st entry f ∧ Record.ofJson f.value = .ok record ∧
      previous = entry.contentHash ∧ current = f.cid ∧
      entryAt (e.afterFetch uri st).cache uri = some left ∧
      (e.refresh now uri st).2.world = (e.afterFetch uri st).world ∧
      entryAt (e.refresh now uri st).2.cache = update (entryAt (e.afterFetch uri st).cache) uri
        (some { left with contentHash := f.cid, body := record.toText, indexedAt := now })
  /-- A failure writes nothing. -/
  failed : ∀ {err}, (e.refresh now uri st).1 = .error err →
    (e.refresh now uri st).2 = e.afterFetch uri st
  /-- An entry that the fetch has left deleted stays so. -/
  absent : entryAt (e.afterFetch uri st).cache uri = none →
    entryAt (e.refresh now uri st).2.cache uri = none
  /-- What would have been written to a deleted entry is reported as not found. -/
  notFound : ∀ {entry f record updated}, entryAt (e.afterFetch uri st).cache uri = none →
    e.Compares uri st entry f → f.cid ≠ entry.contentHash → Record.ofJson f.value = .ok record →
    (e.cache.updateContent uri f.cid record.toText now (e.afterFetch uri st).cache).1 =
      .ok updated →
    (e.refresh now uri st).1 = .error (.notFound uri)
  /-- A refresh succeeds if it can compare, and has nothing to write or can write it. -/
  succeeds : (∃ r, (e.refresh now uri st).1 = .ok r) ↔
    ∃ entry f, e.Compares uri st entry f ∧ (f.cid = entry.contentHash ∨
      ∃ record, Record.ofJson f.value = .ok record ∧
        (e.cache.updateContent uri f.cid record.toText now (e.afterFetch uri st).cache).1 =
          .ok true)
  /-- After a success nothing is left to be done for the same answer. -/
  again : ∀ {r f later found}, (e.refresh now uri st).1 = .ok r → e.Steady uri f st →
    e.Steady uri f (e.refresh now uri st).2 →
    e.cache.get uri (e.refresh now uri st).2.cache = .ok found →
    (e.refresh later uri (e.refresh now uri st).2).1 = .ok ⟨false, f.cid, f.cid⟩ ∧
      (e.refresh later uri (e.refresh now uri st).2).2.cache = (e.refresh now uri st).2.cache

/-- **The contract** holds of every lawful and atomic cache. -/
theorem refreshContract_of_lawful {e : Engine ρ ω} {entryAt : ρ → String → Option IndexedRecord}
    (hc : e.cache.Lawful entryAt) (ha : e.cache.Atomic) (now : Instant) (uri : String)
    (st : State ρ ω) : e.RefreshContract entryAt now uri st where
  confirmed := (refresh_ends hc ha now uri st).of_confirmed
  changed := (refresh_ends hc ha now uri st).of_changed
  failed := (refresh_ends hc ha now uri st).of_failed
  absent := (refresh_ends hc ha now uri st).absent
  notFound := by
    intro entry f record updated hnone hcompares hcid hvalue hanswer
    have hupdated : updated = false := by
      rcases hc.updateContent uri f.cid record.toText now (e.afterFetch uri st).cache with
        ⟨hfound, -⟩ | ⟨⟨err, herr⟩, -⟩
      · rw [hnone, hanswer] at hfound
        exact Except.ok.inj hfound
      · cases hanswer.symm.trans herr
    rw [hcompares.refresh_other hcid hvalue, hanswer, hupdated]
    rfl
  succeeds := by
    constructor
    · rintro ⟨r, hok⟩
      exact (refresh_ends hc ha now uri st).of_ok hok
    · rintro ⟨entry, f, hcompares, hright⟩
      by_cases hcid : f.cid = entry.contentHash
      · exact ⟨_, congrArg Prod.fst (hcompares.refresh_same hcid)⟩
      · obtain ⟨record, hvalue, hupdate⟩ := hright.resolve_left hcid
        refine ⟨⟨true, entry.contentHash, f.cid⟩, ?_⟩
        rw [hcompares.refresh_other hcid hvalue, hupdate]
        rfl
  again := by
    intro r f later found hok hsteady hsteady' hget
    obtain ⟨entry, hentry, hcid⟩ :=
      hsteady.contentHash_of_ok hc (refresh_ends hc ha now uri st) hok
    obtain rfl := (hc.get hget).trans hentry
    obtain ⟨hcompares, hsame⟩ := hsteady'.compares hget
    rw [hcompares.refresh_same hcid]
    exact ⟨rfl, hsame⟩

/-- **The contract of a refresh** holds of every lawful and atomic cache, and so of both caches,
whatever calls of them have been made to fail; and of every repository, whatever it answers and does
to the cache. -/
theorem refreshContract (limit : Nat) (now : Instant) (uri : String) :
    (∀ {ρ : Type} {cache : Cache.Store ρ} {entryAt : ρ → String → Option IndexedRecord},
      cache.Lawful entryAt → cache.Atomic → ∀ (repository : Repository ω ρ) (st : State ρ ω),
      RefreshContract ⟨cache, repository, limit⟩ entryAt now uri st) ∧
    (∀ (calls : List Cache.Call) (repository : Repository ω Cache.Memory)
      (st : State Cache.Memory ω),
      RefreshContract ⟨Cache.Memory.store.failing calls, repository, limit⟩ Cache.Memory.entryAt
        now uri st) ∧
    (∀ (calls : List Cache.Call) (repository : Repository ω Cache.Relational)
      (st : State Cache.Relational ω),
      RefreshContract ⟨Cache.Relational.store.failing calls, repository, limit⟩
        Cache.Relational.entryAt now uri st) := by
  refine ⟨fun hc ha repository st => ?_, fun calls repository st => ?_,
    fun calls repository st => ?_⟩
  · exact refreshContract_of_lawful hc ha now uri st
  · exact refreshContract_of_lawful (Cache.Memory.lawful.failing calls)
      (Cache.Memory.atomic.failing calls) now uri st
  · exact refreshContract_of_lawful (Cache.Relational.lawful.failing calls)
      (Cache.Relational.atomic.failing calls) now uri st

/-- An entry that is behind its repository. -/
def oldEntry : IndexedRecord := ⟨"at://a/c/r", "c1", "p", "pub.chive.eprint.submission", "", 0⟩

/-- What the repository has for it. -/
def newAnswer : Fetched := ⟨"at://a/c/r", "c2", eprintValue, "q"⟩

/-- The record of the answer. -/
def newRecord : Record := .eprint ⟨"T", "A", [⟨"N", none, none⟩], [], none, "2024-01-01T00:00:00Z"⟩

/-- The entry in memory, and a script that answers after some interference. -/
def outdated (interference : List Script.Interference) : State Cache.Memory Script.State where
  cache := ⟨Table.empty.insert "at://a/c/r" oldEntry, .empty⟩
  world := ⟨Table.empty.insert "at://a/c/r" [⟨.ok (some newAnswer), interference⟩], []⟩

/-- The entry is rewritten, deleted, or left alone while it is refreshed. -/
theorem refreshContract_outdated :
    let e : Engine Cache.Memory Script.State :=
      ⟨Cache.Memory.store.failing [.markSwept], Script.repository Cache.Memory.store 5, 500⟩
    let uri := "at://a/c/r"
    ((e.refresh 7 uri (outdated [.edit "c9"])).1 = .ok ⟨true, "c1", "c2"⟩ ∧
      (e.refresh 7 uri (outdated [.edit "c9"])).2.cache.entryAt uri =
        some { oldEntry with contentHash := "c2", body := newRecord.toText, indexedAt := 7 }) ∧
    ((e.refresh 7 uri (outdated [.delete])).1 = .error (.notFound uri) ∧
      (e.refresh 7 uri (outdated [.delete])).2.cache.entryAt uri = none) ∧
    ((e.refresh 7 uri (outdated [])).1 = .ok ⟨true, "c1", "c2"⟩ ∧
      (e.refresh 9 uri (e.refresh 7 uri (outdated [])).2).1 = .ok ⟨false, "c2", "c2"⟩) := by
  intro e uri
  have hcontract :=
    (refreshContract 500 7 uri).2.1 [.markSwept] (Script.repository Cache.Memory.store 5)
  have hvalue : Record.ofJson newAnswer.value = .ok newRecord := by decide +kernel
  have hdeleted : e.Compares uri (outdated [.delete]) oldEntry newAnswer := ⟨rfl, rfl⟩
  have hrefreshed : (e.refresh 7 uri (outdated [])).1 = .ok ⟨true, "c1", "c2"⟩ := by
    decide +kernel
  have hsteady : e.Steady uri newAnswer (outdated []) := fun _ => ⟨rfl, rfl⟩
  have hsteady' : e.Steady uri newAnswer (e.refresh 7 uri (outdated [])).2 := by
    obtain ⟨_, _, _, _, -, -, -, -, -, hworld, -⟩ := (hcontract (outdated [])).changed hrefreshed
    intro hint
    rw [hworld]
    exact ⟨rfl, rfl⟩
  have hget : e.cache.get uri (e.refresh 7 uri (outdated [])).2.cache = .ok (some
      { oldEntry with contentHash := "c2", body := newRecord.toText, indexedAt := 7 }) := by
    decide +kernel
  refine ⟨by decide +kernel, ⟨?_, ?_⟩, hrefreshed, ?_⟩
  · exact (hcontract (outdated [.delete])).notFound rfl hdeleted (by decide) hvalue rfl
  · exact (hcontract (outdated [.delete])).absent rfl
  · exact ((hcontract (outdated [])).again hrefreshed hsteady hsteady' hget).1

end PaperIndex.Sync.Engine
