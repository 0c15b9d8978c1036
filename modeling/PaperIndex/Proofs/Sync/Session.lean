import PaperIndex.Proofs.Atomic
import PaperIndex.Sync.Engine

/-! # Requests to the synchronization engine

A request is one operation of the engine with its arguments; the engine serves it at an instant.
`Refreshes` lists the ways in which a refresh goes. From it follows what a request that fails leaves
behind: the state as it was, or what the repository has made of it (`serve_error`). -/

namespace PaperIndex.Sync

open Time (Instant)

/-- An operation of the engine. -/
inductive Request
  | index (uri cid endpoint : String) (value : Json)
  | track (uri cid endpoint : String)
  | delete (uri : String)
  | check (uri : String)
  | refresh (uri : String)
  | detect (maxAge : Int)
  | sweep (maxAge : Int) (limit : Nat)
  | registerServer (endpoint : String)
  | servers

/-- What an operation returns. -/
inductive Reply
  | done
  | record (r : Record)
  | check (c : Check)
  | refresh (r : Refresh)
  | entries (es : List IndexedRecord)
  | report (r : Report)
  | endpoint (s : String)
  | servers (ss : List ServerEntry)
deriving DecidableEq, Repr

/-- The outcome of an operation as an answer to a request. -/
def answered {α τ : Type} (reply : α → Reply) (r : Except IndexError α × τ) :
    Except ScanStop Reply × τ := ((r.1.mapError .failed).map reply, r.2)

theorem snd_answered {α τ : Type} (reply : α → Reply) (r : Except IndexError α × τ) :
    (answered reply r).2 = r.2 := rfl

theorem exists_error_of_answered {α τ : Type} {reply : α → Reply} {r : Except IndexError α × τ}
    {stop : ScanStop} (h : (answered reply r).1 = .error stop) : ∃ e, r.1 = .error e := by
  obtain ⟨r, st⟩ := r
  cases r with
  | error e => exact ⟨e, rfl⟩
  | ok a => cases h

namespace Engine

variable {ρ ω : Type}

/-- Serves a request, by a clock of which so many ticks make a millisecond. Unless it is said what
the clock reads later on, it stands still. -/
def serve (e : Engine ρ ω) (now : Instant) (q : Request) (st : State ρ ω) (ticks : Nat := 1)
    (later : Nat → Instant := fun _ => now) : Except ScanStop Reply × State ρ ω :=
  match q with
  | .index uri cid endpoint value => answered .record (e.index now uri cid endpoint value st)
  | .track uri cid endpoint => answered (fun _ => .done) (e.track now uri cid endpoint st)
  | .delete uri => answered (fun _ => .done) (e.delete uri st)
  | .check uri => (.ok (.check (e.check uri st).1), (e.check uri st).2)
  | .refresh uri => answered .refresh (e.refresh now uri st)
  | .detect maxAge => ((e.detect now maxAge st ticks).map .entries, st)
  | .sweep maxAge limit =>
    let r := e.sweep now maxAge limit st ticks later
    (r.1.map .report, r.2)
  | .registerServer endpoint => answered .endpoint (e.registerServer now endpoint st)
  | .servers => answered .servers (e.servers st, st)

/-- The answer of the repository about an entry, and the state that the fetch leaves. -/
def fetched (e : Engine ρ ω) (uri : String) (entry : IndexedRecord) (st : State ρ ω) :
    Except FetchError (Option Fetched) × State ρ ω :=
  let r := e.repository.fetch uri (hintOf entry.endpoint) st.world st.cache
  (r.1, ⟨r.2.2, r.2.1⟩)

/-- **The ways in which a refresh goes**, with its outcome and the state that it leaves. -/
inductive Refreshes (e : Engine ρ ω) (now : Instant) (uri : String) (st : State ρ ω) :
    Except IndexError Refresh × State ρ ω → Prop
  | unread {err} (hget : e.cache.get uri st.cache = .error err) :
    Refreshes e now uri st (.error (storeFailure err), st)
  | unknown (hget : e.cache.get uri st.cache = .ok none) :
    Refreshes e now uri st (.error (.notFound uri), st)
  | unreachable {entry err st'} (hget : e.cache.get uri st.cache = .ok (some entry))
    (hfetch : e.fetched uri entry st = (.error err, st')) :
    Refreshes e now uri st (.error (.transient (.fetch err)), st')
  | missing {entry st'} (hget : e.cache.get uri st.cache = .ok (some entry))
    (hfetch : e.fetched uri entry st = (.ok none, st')) :
    Refreshes e now uri st (.error (.notFound uri), st')
  | confirmed {entry st' f} (hget : e.cache.get uri st.cache = .ok (some entry))
    (hfetch : e.fetched uri entry st = (.ok (some f), st')) (hcid : f.cid = entry.contentHash) :
    Refreshes e now uri st (.ok ⟨false, entry.contentHash, entry.contentHash⟩, st')
  | unacceptable {entry st' f fault} (hget : e.cache.get uri st.cache = .ok (some entry))
    (hfetch : e.fetched uri entry st = (.ok (some f), st')) (hcid : f.cid ≠ entry.contentHash)
    (hvalue : Record.ofJson f.value = .error fault) :
    Refreshes e now uri st (.error (.validation fault), st')
  | written {entry st' f record r cache} (hget : e.cache.get uri st.cache = .ok (some entry))
    (hfetch : e.fetched uri entry st = (.ok (some f), st')) (hcid : f.cid ≠ entry.contentHash)
    (hvalue : Record.ofJson f.value = .ok record)
    (hupdate : e.cache.updateContent uri f.cid record.toText now st'.cache = (r, cache)) :
    Refreshes e now uri st
      ((foundOr uri r).map fun _ => ⟨true, entry.contentHash, f.cid⟩, { st' with cache })

/-- **A refresh** goes in one of these ways. -/
theorem refresh_cases (e : Engine ρ ω) (now : Instant) (uri : String) (st : State ρ ω) :
    e.Refreshes now uri st (e.refresh now uri st) := by
  rw [refresh]
  split
  · next err hget => exact .unread hget
  · next hget => exact .unknown hget
  · next entry hget =>
    simp only
    split
    · next err herr => exact .unreachable hget (Prod.ext herr rfl)
    · next hnone => exact .missing hget (Prod.ext hnone rfl)
    · next f hsome =>
      have hfetch : e.fetched uri entry st = (.ok (some f), (e.fetched uri entry st).2) :=
        Prod.ext hsome rfl
      split
      · next hcid => exact .confirmed hget hfetch hcid
      · next hcid =>
        rw [replace]
        split
        · next fault hvalue => exact .unacceptable hget hfetch hcid hvalue
        · next record hvalue => exact .written hget hfetch hcid hvalue rfl

/-- A record is stored only under the URI of a record, and it is the value that was offered. -/
theorem index_eq_ok {e : Engine ρ ω} {now : Instant} {st : State ρ ω}
    {uri cid endpoint : String} {value : Json} {record : Record}
    (h : (e.index now uri cid endpoint value st).1 = .ok record) :
    (∃ u, RecordUri.parse uri = .ok u) ∧ Record.ofJson value = .ok record := by
  unfold index at h
  simp only at h
  split at h
  · cases h
  · next record' hchecked =>
    obtain rfl : record' = record := by
      simp only at h
      split at h
      · exact Except.ok.inj h
      · cases h
    cases hparse : RecordUri.parse uri with
    | error fault => rw [hparse] at hchecked; cases hchecked
    | ok u =>
      rw [hparse] at hchecked
      change (if Text.isBlankText cid then _ else _) = _ at hchecked
      split at hchecked
      · cases hchecked
      · exact ⟨⟨u, rfl⟩, hchecked⟩

/-! ### Sweeps -/

/-- A scan for stale entries. -/
theorem stale_of_scan {e : Engine ρ ω} {now : Instant} {maxAge : Int} (hage : 0 ≤ maxAge)
    (hcutoff : Time.hasDate (now - maxAge) = true) {limit : Nat} {st : State ρ ω}
    {found : List IndexedRecord}
    (hscan : e.cache.indexedBefore (now - maxAge) limit st.cache = .ok found) :
    e.stale now maxAge limit st = .ok found := by
  rw [stale_eq]
  rw [if_neg (Int.not_lt.2 hage), if_pos hcutoff, hscan]
  rfl

/-- A sweep of what a scan has found. -/
theorem sweep_of_stale {e : Engine ρ ω} {now : Instant} {maxAge : Int} {limit : Nat}
    {st : State ρ ω} {cs : List IndexedRecord} (h : e.stale now maxAge limit st = .ok cs) :
    e.sweep now maxAge limit st =
      (.ok (.of (e.sweepAll (fun _ => now) cs st).1), { (e.sweepAll (fun _ => now) cs st).2 with
        cache := e.markAll now (endpointsOf cs) (e.sweepAll (fun _ => now) cs st).2.cache }) := by
  unfold sweep
  rw [h]

/-! ### Failures -/

theorem foundOr_eq_error_iff (uri : String) {r : Except StoreError Bool} :
    (∃ err, foundOr uri r = .error err) ↔ r ≠ .ok true := by
  rcases r with err | (_ | _) <;> simp [foundOr]

section Atomic
variable {e : Engine ρ ω} (he : e.cache.Atomic) {now : Instant} {st : State ρ ω}
include he

theorem index_error {uri cid endpoint : String} {value : Json} {err : IndexError}
    (h : (e.index now uri cid endpoint value st).1 = .error err) :
    (e.index now uri cid endpoint value st).2 = st := by
  rw [index] at h ⊢
  simp only at h ⊢
  split at h
  · rfl
  · next record hchecked =>
    split at h
    · cases h
    · next cause hcause => rw [he.upsert hcause]

theorem track_error {uri cid endpoint : String} {err : IndexError}
    (h : (e.track now uri cid endpoint st).1 = .error err) :
    (e.track now uri cid endpoint st).2 = st := by
  have hne := (foundOr_eq_error_iff uri).1 ⟨err, h⟩
  change State.mk (e.cache.updateSource uri cid endpoint now st.cache).2 st.world = st
  rw [he.updateSource hne]

theorem delete_error {uri : String} {err : IndexError} (h : (e.delete uri st).1 = .error err) :
    (e.delete uri st).2 = st := by
  have hne := (foundOr_eq_error_iff uri).1 ⟨err, h⟩
  change State.mk (e.cache.delete uri st.cache).2 st.world = st
  rw [he.delete hne]

theorem registerServer_error {endpoint : String} {err : IndexError}
    (h : (e.registerServer now endpoint st).1 = .error err) :
    (e.registerServer now endpoint st).2 = st := by
  unfold registerServer at h ⊢
  split at h
  · rfl
  · next normal hnormal =>
    simp only at h ⊢
    split at h
    · cases h
    · next cause hcause => rw [he.registerServer hcause]

/-- A refresh that fails leaves the state alone after its fetch. -/
theorem refresh_error {uri : String} {err : IndexError}
    (h : (e.refresh now uri st).1 = .error err) :
    (e.refresh now uri st).2 = st ∨
      ∃ entry, e.cache.get uri st.cache = .ok (some entry) ∧
        (e.refresh now uri st).2 = (e.fetched uri entry st).2 := by
  have hcases := e.refresh_cases now uri st
  generalize e.refresh now uri st = x at h hcases
  cases hcases with
  | unread hget => exact .inl rfl
  | unknown hget => exact .inl rfl
  | unreachable hget hfetch => exact .inr ⟨_, hget, by rw [hfetch]⟩
  | missing hget hfetch => exact .inr ⟨_, hget, by rw [hfetch]⟩
  | confirmed hget hfetch hcid => cases h
  | unacceptable hget hfetch hcid hvalue => exact .inr ⟨_, hget, by rw [hfetch]⟩
  | @written entry st' f record r cache hget hfetch hcid hvalue hupdate =>
    refine .inr ⟨_, hget, ?_⟩
    have hne : r ≠ .ok true := by
      rintro rfl
      cases h
    rw [hfetch, he.eq_of_updateContent hupdate hne]

omit he in
theorem sweep_error {maxAge : Int} {limit : Nat} {stop : ScanStop}
    (h : (e.sweep now maxAge limit st).1 = .error stop) : (e.sweep now maxAge limit st).2 = st := by
  rw [sweep] at h ⊢
  split at h
  · rfl
  · cases h

/-- **A request that fails** leaves the state as it was, or as the fetch of a refresh has left
it. -/
theorem serve_error {q : Request} {stop : ScanStop} (h : (e.serve now q st).1 = .error stop) :
    (e.serve now q st).2 = st ∨
      ∃ uri entry, q = .refresh uri ∧ e.cache.get uri st.cache = .ok (some entry) ∧
        (e.serve now q st).2 = (e.fetched uri entry st).2 := by
  cases q with
  | index uri cid endpoint value =>
    obtain ⟨err, herr⟩ := exists_error_of_answered h
    exact .inl (index_error he herr)
  | track uri cid endpoint =>
    obtain ⟨err, herr⟩ := exists_error_of_answered h
    exact .inl (track_error he herr)
  | delete uri =>
    obtain ⟨err, herr⟩ := exists_error_of_answered h
    exact .inl (delete_error he herr)
  | check uri => cases h
  | refresh uri =>
    obtain ⟨err, herr⟩ := exists_error_of_answered h
    rcases refresh_error he herr with hsame | ⟨entry, hget, hfetch⟩
    · exact .inl hsame
    · exact .inr ⟨uri, entry, rfl, hget, hfetch⟩
  | detect maxAge => exact .inl rfl
  | sweep maxAge limit =>
    exact .inl (sweep_error (map_eq_error_iff.1 h))
  | registerServer endpoint =>
    rw [serve] at h ⊢
    rw [snd_answered]
    exact .inl (registerServer_error he (exists_error_of_answered h).choose_spec)
  | servers => exact .inl rfl

end Atomic

end Engine

end PaperIndex.Sync
