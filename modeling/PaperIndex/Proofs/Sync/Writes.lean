import PaperIndex.Proofs.Cache.Laws
import PaperIndex.Proofs.Sync.Session

/-! # What the synchronization engine writes

Every operation amounts to a list of writes, each to the entry of one URI (`Engine.writes`). Over a
lawful cache, and if fetches leave the cache alone, the entries after an operation are those before
it with its writes applied in turn (`entryAt_serve`), and likewise for runs (`entryAt_run`). -/

namespace PaperIndex.Sync

open Time (Instant)
open Function (update)

/-- A change of an entry. -/
inductive Change
  | indexed (cid endpoint : String) (record : Record)
  | refreshed (cid : String) (record : Record)
  | tracked (cid endpoint : String)
  | confirmed (cid : String)
  | deleted
deriving DecidableEq, Repr

/-- A change of the entry of a URI at an instant. -/
structure Write where
  now : Instant
  uri : String
  change : Change
deriving DecidableEq, Repr

/-- The entry of the URI after a write. -/
def Write.apply (w : Write) (slot : Option IndexedRecord) : Option IndexedRecord :=
  match w.change with
  | .indexed cid endpoint record =>
    some ⟨w.uri, cid, endpoint, record.typeName, record.toText, w.now⟩
  | .refreshed cid record =>
    slot.map fun e => { e with contentHash := cid, body := record.toText, indexedAt := w.now }
  | .tracked cid endpoint =>
    slot.map fun e => { e with contentHash := cid, endpoint := endpoint, indexedAt := w.now }
  | .confirmed cid =>
    slot.map fun e => if e.contentHash == cid then { e with indexedAt := w.now } else e
  | .deleted => none

/-- The entries after writes, each done to its URI. -/
def applyWrites (entries : String → Option IndexedRecord) (ws : List Write) :
    String → Option IndexedRecord :=
  ws.foldl (fun entries w => update entries w.uri (w.apply (entries w.uri))) entries

/-- The writes to a URI. -/
def writesTo (uri : String) (ws : List Write) : List Write := ws.filter fun w => w.uri = uri

theorem applyWrites_append (entries : String → Option IndexedRecord) (ws ws' : List Write) :
    applyWrites entries (ws ++ ws') = applyWrites (applyWrites entries ws) ws' :=
  List.foldl_append

namespace Engine

variable {ρ ω : Type}

/-- The record that the repository offers for the entry of a URI, if it is acceptable. -/
def offered? (e : Engine ρ ω) (uri : String) (st : State ρ ω) : Option Record :=
  match e.cache.get uri st.cache with
  | .ok (some entry) =>
    match (e.fetched uri entry st).1 with
    | .ok (some f) => (Record.ofJson f.value).toOption
    | _ => none
  | _ => none

/-- The write of a refresh. -/
def refreshWrites (e : Engine ρ ω) (now : Instant) (uri : String) (st : State ρ ω) : List Write :=
  match (e.refresh now uri st).1 with
  | .ok ⟨true, _, cid⟩ =>
    (e.offered? uri st).toList.map fun record => ⟨now, uri, .refreshed cid record⟩
  | _ => []

/-- The write of the refresh of a swept entry. -/
def sweepOneWrites (e : Engine ρ ω) (now : Instant) (uri : String) (st : State ρ ω) : List Write :=
  match e.refresh now uri st with
  | (.ok ⟨false, _, cid⟩, st') =>
    match (e.cache.touchVerified uri cid now st'.cache).1 with
    | .ok _ => [⟨now, uri, .confirmed cid⟩]
    | .error _ => []
  | _ => e.refreshWrites now uri st

/-- The writes of a sweep of entries. -/
def sweepWrites (e : Engine ρ ω) (now : Instant) : List IndexedRecord → State ρ ω → List Write
  | [], _ => []
  | entry :: entries, st =>
    e.sweepOneWrites now entry.uri st ++ e.sweepWrites now entries (e.sweepOne now entry st).2

/-- **The writes of a request.** -/
def writes (e : Engine ρ ω) (now : Instant) : Request → State ρ ω → List Write
  | .index uri cid endpoint value, st =>
    match (e.index now uri cid endpoint value st).1 with
    | .ok record => [⟨now, uri, .indexed cid endpoint record⟩]
    | .error _ => []
  | .track uri cid endpoint, st =>
    if (e.track now uri cid endpoint st).1.isOk then [⟨now, uri, .tracked cid endpoint⟩] else []
  | .delete uri, st => if (e.delete uri st).1.isOk then [⟨now, uri, .deleted⟩] else []
  | .refresh uri, st => e.refreshWrites now uri st
  | .sweep maxAge limit, st =>
    match e.stale now maxAge limit st with
    | .ok entries => e.sweepWrites now entries st
    | .error _ => []
  | _, _ => []

section Index
variable {e : Engine ρ ω} {now : Instant} {uri cid endpoint : String} {value : Json}
  {st : State ρ ω}

theorem writes_index_ok {record : Record}
    (h : (e.index now uri cid endpoint value st).1 = .ok record) :
    e.writes now (.index uri cid endpoint value) st =
      [⟨now, uri, .indexed cid endpoint record⟩] := by
  rw [writes, h]

theorem writes_index_error {err : IndexError}
    (h : (e.index now uri cid endpoint value st).1 = .error err) :
    e.writes now (.index uri cid endpoint value) st = [] := by
  rw [writes, h]

end Index

/-- The state after a run of requests, each at its instant. -/
def run (e : Engine ρ ω) : List (Instant × Request) → State ρ ω → State ρ ω
  | [], st => st
  | (now, q) :: qs, st => e.run qs (e.serve now q st).2

/-- **The log of a run**: the writes of its requests. -/
def log (e : Engine ρ ω) : List (Instant × Request) → State ρ ω → List Write
  | [], _ => []
  | (now, q) :: qs, st => e.writes now q st ++ e.log qs (e.serve now q st).2

/-! ### The entries after an operation -/

theorem cache_fetched {e : Engine ρ ω} (hr : e.repository.Discreet) (uri : String)
    (entry : IndexedRecord) (st : State ρ ω) : (e.fetched uri entry st).2.cache = st.cache :=
  hr uri _ st.world st.cache

theorem cache_of_fetched {e : Engine ρ ω} (hr : e.repository.Discreet) {uri : String}
    {entry : IndexedRecord} {st st' : State ρ ω} {answer : Except FetchError (Option Fetched)}
    (hfetch : e.fetched uri entry st = (answer, st')) : st'.cache = st.cache := by
  have hcache := cache_fetched hr uri entry st
  rwa [hfetch] at hcache

section Lawful
variable {e : Engine ρ ω} {entryAt : ρ → String → Option IndexedRecord}
  (hc : e.cache.Lawful entryAt)
include hc

theorem entryAt_index (now : Instant) (uri cid endpoint : String) (value : Json) (st : State ρ ω) :
    entryAt (e.index now uri cid endpoint value st).2.cache =
      applyWrites (entryAt st.cache) (e.writes now (.index uri cid endpoint value) st) := by
  unfold writes index
  simp only
  split
  · rfl
  · next record hchecked =>
    rcases hc.upsert ⟨uri, cid, endpoint, record.typeName, record.toText, now⟩ st.cache with
      ⟨hok, hentry⟩ | ⟨⟨err, herr⟩, hentry⟩
    · simp only [hok, hentry]
      rfl
    · simp only [herr, hentry]
      rfl

theorem entryAt_track (now : Instant) (uri cid endpoint : String) (st : State ρ ω) :
    entryAt (e.track now uri cid endpoint st).2.cache =
      applyWrites (entryAt st.cache) (e.writes now (.track uri cid endpoint) st) := by
  have hwrites := hc.updateSource uri cid endpoint now st.cache
  unfold writes track
  rcases hwrites.found (by simp +contextual) with ⟨hok, hentry⟩ | ⟨hne, hentry⟩
  · simp only [hok, hentry]
    rfl
  · obtain ⟨err, herr⟩ := (foundOr_eq_error_iff uri).2 hne
    simp only [herr, hentry]
    rfl

theorem entryAt_delete (now : Instant) (uri : String) (st : State ρ ω) :
    entryAt (e.delete uri st).2.cache =
      applyWrites (entryAt st.cache) (e.writes now (.delete uri) st) := by
  have hwrites := hc.delete uri st.cache
  unfold writes delete
  rcases hwrites.found (by simp) with ⟨hok, hentry⟩ | ⟨hne, hentry⟩
  · simp only [hok, hentry]
    rfl
  · obtain ⟨err, herr⟩ := (foundOr_eq_error_iff uri).2 hne
    simp only [herr, hentry]
    rfl

theorem entryAt_markAll (now : Instant) (endpoints : List String) (cache : ρ) :
    entryAt (e.markAll now endpoints cache) = entryAt cache := by
  unfold markAll
  induction endpoints generalizing cache with
  | nil => rfl
  | cons endpoint endpoints ih => exact (ih _).trans (hc.markSwept endpoint now cache)

variable (hr : e.repository.Discreet)
include hr

theorem entryAt_refresh (now : Instant) (uri : String) (st : State ρ ω) :
    entryAt (e.refresh now uri st).2.cache =
      applyWrites (entryAt st.cache) (e.refreshWrites now uri st) := by
  have hcases := e.refresh_cases now uri st
  unfold refreshWrites
  generalize e.refresh now uri st = x at hcases ⊢
  -- The fetch leaves the cache alone, so the entries change by `updateContent` only.
  cases hcases with
  | unread hget => rfl
  | unknown hget => rfl
  | unreachable hget hfetch => exact congrArg entryAt (cache_of_fetched hr hfetch)
  | missing hget hfetch => exact congrArg entryAt (cache_of_fetched hr hfetch)
  | confirmed hget hfetch hcid => exact congrArg entryAt (cache_of_fetched hr hfetch)
  | unacceptable hget hfetch hcid hvalue => exact congrArg entryAt (cache_of_fetched hr hfetch)
  | @written entry st' f record r cache hget hfetch hcid hvalue hupdate =>
    have hoffered : e.offered? uri st = some record := by
      unfold offered?
      simp only [hget, hfetch, hvalue]
      rfl
    have hwrites := hc.updateContent uri f.cid record.toText now st'.cache
    rw [hupdate, cache_of_fetched hr hfetch] at hwrites
    rcases hwrites.found (by simp +contextual) with ⟨hok, hentry⟩ | ⟨hne, hentry⟩
    · simp only at hok hentry
      subst hok
      simp only [hoffered, hentry]
      rfl
    · obtain ⟨err, herr⟩ := (foundOr_eq_error_iff uri).2 hne
      simp only at herr hentry
      simp only [herr, hentry]
      rfl

theorem entryAt_sweepOne (now : Instant) (entry : IndexedRecord) (st : State ρ ω) :
    entryAt (e.sweepOne now entry st).2.cache =
      applyWrites (entryAt st.cache) (e.sweepOneWrites now entry.uri st) := by
  have hrefresh := entryAt_refresh hc hr now entry.uri st
  unfold sweepOne sweepOneWrites
  rcases hx : e.refresh now entry.uri st with ⟨err | ⟨_ | _, previous, current⟩, st'⟩
  · rwa [hx] at hrefresh
  · have hsame : entryAt st'.cache = entryAt st.cache := by
      rw [hx, refreshWrites, hx] at hrefresh
      exact hrefresh
    rcases hc.touchVerified entry.uri current now st'.cache with
      ⟨hok, hentry⟩ | ⟨⟨err, herr⟩, hentry⟩
    · simp only [hok, hentry, hsame]
      rfl
    · simp only [herr, hentry, hsame]
      rfl
  · rwa [hx] at hrefresh

theorem entryAt_sweepAll (now : Instant) (entries : List IndexedRecord) (st : State ρ ω) :
    entryAt (e.sweepAll (fun _ => now) entries st).2.cache =
      applyWrites (entryAt st.cache) (e.sweepWrites now entries st) := by
  induction entries generalizing st with
  | nil => rfl
  | cons entry entries ih =>
    rw [sweepWrites, applyWrites_append, ← entryAt_sweepOne hc hr now entry st]
    exact ih _

theorem entryAt_sweep (now : Instant) (maxAge : Int) (limit : Nat) (st : State ρ ω) :
    entryAt (e.sweep now maxAge limit st).2.cache =
      applyWrites (entryAt st.cache) (e.writes now (.sweep maxAge limit) st) := by
  rw [writes]
  unfold sweep
  cases e.stale now maxAge limit st with
  | error stop => rfl
  | ok entries =>
    rw [entryAt_markAll hc]
    exact entryAt_sweepAll hc hr now entries st

/-- **An operation** does its writes to the entries, and nothing else. -/
theorem entryAt_serve (now : Instant) (q : Request) (st : State ρ ω) :
    entryAt (e.serve now q st).2.cache = applyWrites (entryAt st.cache) (e.writes now q st) := by
  cases q with
  | index uri cid endpoint value => exact entryAt_index hc now uri cid endpoint value st
  | track uri cid endpoint => exact entryAt_track hc now uri cid endpoint st
  | delete uri => exact entryAt_delete hc now uri st
  | check uri =>
    change entryAt (e.check uri st).2.cache = entryAt st.cache
    unfold check
    split
    · rfl
    · rfl
    · next entry hget => exact congrArg entryAt (cache_fetched hr uri entry st)
  | refresh uri => exact entryAt_refresh hc hr now uri st
  | detect maxAge => rfl
  | sweep maxAge limit => exact entryAt_sweep hc hr now maxAge limit st
  | registerServer endpoint =>
    rw [serve, snd_answered]
    unfold registerServer
    split
    · rfl
    · next normal hnormal => exact hc.registerServer normal now st.cache
  | servers => rfl

/-- **A run** does the writes of its log to the entries. -/
theorem entryAt_run (session : List (Instant × Request)) (st : State ρ ω) :
    entryAt (e.run session st).cache = applyWrites (entryAt st.cache) (e.log session st) := by
  induction session generalizing st with
  | nil => rfl
  | cons call session ih =>
    obtain ⟨now, q⟩ := call
    rw [log, applyWrites_append, ← entryAt_serve hc hr now q st]
    exact ih _

end Lawful

end Engine

end PaperIndex.Sync
