import PaperIndex.Record.Basic
import PaperIndex.Sync.Endpoint
import PaperIndex.Sync.Outcome
import PaperIndex.Sync.Repository

/-! # Keeping the cache in step with the servers

An entry is stale when its content identifier differs from the authoritative one. Instants only
choose what a sweep looks at. Every operation makes a single attempt, and one that fails writes
nothing. -/

namespace PaperIndex.Sync

open Time (Instant)

/-- The cache, the repository, and the limit on scans. -/
structure Engine (ρ ω : Type) where
  cache : Cache.Store ρ
  repository : Repository ω ρ
  scanLimit : Nat

/-- The usual limit on scans. -/
def defaultScanLimit : Nat := 500

/-- What the engine changes. -/
structure State (ρ ω : Type) where
  cache : ρ
  world : ω
deriving DecidableEq, Repr

/-- How a scan ends without an answer. -/
inductive ScanStop
  | failed (e : IndexError)
  /-- The scan would reach back before the first date. -/
  | beforeDates
deriving DecidableEq, Repr

/-- The hint that an endpoint gives. -/
def hintOf (endpoint : String) : Option String := if endpoint.isEmpty then none else some endpoint

/-- The failure of the cache. -/
def storeFailure (e : StoreError) : IndexError := .transient (.store e)

/-- The outcome of a write that has to find an entry. -/
def foundOr (uri : String) : Except StoreError Bool → Except IndexError Unit
  | .ok true => .ok ()
  | .ok false => .error (.notFound uri)
  | .error e => .error (storeFailure e)

/-- The outcome of a refresh as a sweep counts it. -/
def sweptOf : Except IndexError Refresh → Swept
  | .ok r => if r.changed then .changed else .confirmed
  | .error (.notFound _) => .notFound
  | .error _ => .failed

/-- The endpoints of entries, each once, ascending. -/
def endpointsOf (entries : List IndexedRecord) : List String :=
  (((entries.map (·.endpoint)).filter fun p => !p.isEmpty).eraseDups).mergeSort fun a b => a ≤ b

namespace Engine

variable {ρ ω : Type}

/-- The engine with the usual limit on scans. -/
def withUsualLimit (cache : Cache.Store ρ) (repository : Repository ω ρ) : Engine ρ ω :=
  ⟨cache, repository, defaultScanLimit⟩

/-- Sets the limit on scans, which is at least one. -/
def withScanLimit (n : Nat) (e : Engine ρ ω) : Engine ρ ω := { e with scanLimit := max n 1 }

/-- Checks a record and stores its entry. -/
def index (e : Engine ρ ω) (now : Instant) (uri cid endpoint : String) (value : Json)
    (st : State ρ ω) : Except IndexError Record × State ρ ω :=
  let checked : Except InputFault Record := do
    let _ ← RecordUri.parse uri
    if Text.isBlankText cid then .error .emptyCid else Record.ofJson value
  match checked with
  | .error fault => (.error (.validation fault), st)
  | .ok record =>
    let entry := ⟨uri, cid, endpoint, record.typeName, record.toText, now⟩
    let (r, cache) := e.cache.upsert entry st.cache
    (match r with
      | .ok () => .ok record
      | .error err => .error (storeFailure err),
      { st with cache })

/-- Notes where a record that is indexed was last seen. -/
def track (e : Engine ρ ω) (now : Instant) (uri cid endpoint : String) (st : State ρ ω) :
    Except IndexError Unit × State ρ ω :=
  let (r, cache) := e.cache.updateSource uri cid endpoint now st.cache
  (foundOr uri r, { st with cache })

/-- Removes an entry. -/
def delete (e : Engine ρ ω) (uri : String) (st : State ρ ω) :
    Except IndexError Unit × State ρ ω :=
  let (r, cache) := e.cache.delete uri st.cache
  (foundOr uri r, { st with cache })

/-- Compares an entry with its authoritative record. A check never fails. -/
def check (e : Engine ρ ω) (uri : String) (st : State ρ ω) : Check × State ρ ω :=
  match e.cache.get uri st.cache with
  | .error err => (⟨uri, .lookupFailed err⟩, st)
  | .ok none => (⟨uri, .notIndexed⟩, st)
  | .ok (some entry) =>
    let (answer, world, cache) :=
      e.repository.fetch uri (hintOf entry.endpoint) st.world st.cache
    let finding := match answer with
      | .ok (some fetched) => .compared entry.contentHash fetched.cid
      | .ok none => .missing entry.contentHash
      | .error err => .fetchFailed entry.contentHash err
    (⟨uri, finding⟩, ⟨cache, world⟩)

/-- Writes a record that differs from the entry of its URI. -/
def replace (e : Engine ρ ω) (now : Instant) (uri : String) (entry : IndexedRecord)
    (fetched : Fetched) (st : State ρ ω) : Except IndexError Refresh × State ρ ω :=
  match Record.ofJson fetched.value with
  | .error fault => (.error (.validation fault), st)
  | .ok record =>
    let (r, cache) := e.cache.updateContent uri fetched.cid record.toText now st.cache
    ((foundOr uri r).map fun _ => ⟨true, entry.contentHash, fetched.cid⟩, { st with cache })

/-- Brings an entry up to date. A record that the repository does not know is left alone. -/
def refresh (e : Engine ρ ω) (now : Instant) (uri : String) (st : State ρ ω) :
    Except IndexError Refresh × State ρ ω :=
  match e.cache.get uri st.cache with
  | .error err => (.error (storeFailure err), st)
  | .ok none => (.error (.notFound uri), st)
  | .ok (some entry) =>
    let (answer, world, cache) :=
      e.repository.fetch uri (hintOf entry.endpoint) st.world st.cache
    let st : State ρ ω := ⟨cache, world⟩
    match answer with
    | .error err => (.error (.transient (.fetch err)), st)
    | .ok none => (.error (.notFound uri), st)
    | .ok (some fetched) =>
      if fetched.cid = entry.contentHash then
        (.ok ⟨false, entry.contentHash, entry.contentHash⟩, st)
      else e.replace now uri entry fetched st

/-- The entries that were not confirmed within an age in milliseconds, by a clock of which so many
ticks make a millisecond. -/
def stale (e : Engine ρ ω) (now : Instant) (maxAge : Int) (limit : Nat) (st : State ρ ω)
    (ticks : Nat := 1) : Except ScanStop (List IndexedRecord) :=
  let cutoff := now - maxAge * ticks
  if maxAge < 0 then .error (.failed (.validation .negativeAge))
  else if Time.hasDate (Time.millis ticks cutoff) then
    (e.cache.indexedBefore cutoff limit st.cache).mapError fun err => .failed (storeFailure err)
  else .error .beforeDates

/-- The stale entries, up to the limit on scans. -/
def detect (e : Engine ρ ω) (now : Instant) (maxAge : Int) (st : State ρ ω) (ticks : Nat := 1) :
    Except ScanStop (List IndexedRecord) :=
  e.stale now maxAge e.scanLimit st ticks

/-- Refreshes an entry of a sweep. One that is confirmed gets a new instant if it still has the
content identifier that was confirmed. -/
def sweepOne (e : Engine ρ ω) (now : Instant) (entry : IndexedRecord) (st : State ρ ω) :
    Swept × State ρ ω :=
  let (r, st) := e.refresh now entry.uri st
  match r with
  | .ok ⟨false, _, current⟩ =>
    let (_, cache) := e.cache.touchVerified entry.uri current now st.cache
    (.confirmed, { st with cache })
  | r => (sweptOf r, st)

/-- Refreshes the entries of a sweep in turn. The clock is read once for each of them. -/
def sweepAll (e : Engine ρ ω) (clock : Nat → Instant) : List IndexedRecord → State ρ ω →
    List Swept × State ρ ω
  | [], st => ([], st)
  | entry :: entries, st =>
    let (outcome, st) := e.sweepOne (clock 0) entry st
    let (outcomes, st) := e.sweepAll (fun n => clock (n + 1)) entries st
    (outcome :: outcomes, st)

/-- Notes the sweep of endpoints. -/
def markAll (e : Engine ρ ω) (now : Instant) (endpoints : List String) (cache : ρ) : ρ :=
  endpoints.foldl (fun cache endpoint => (e.cache.markSwept endpoint now cache).2) cache

/-- Refreshes each stale entry once, up to a limit, and notes the sweep of their servers. Unless it
is said what the clock reads later on, it stands still. -/
def sweep (e : Engine ρ ω) (now : Instant) (maxAge : Int) (limit : Nat) (st : State ρ ω)
    (ticks : Nat := 1) (later : Nat → Instant := fun _ => now) :
    Except ScanStop Report × State ρ ω :=
  match e.stale now maxAge limit st ticks with
  | .error stop => (.error stop, st)
  | .ok entries =>
    let (outcomes, st) := e.sweepAll later entries st
    let cache := e.markAll (later entries.length) (endpointsOf entries) st.cache
    (.ok (.of outcomes), { st with cache })

/-- By a clock that counts milliseconds. -/
theorem stale_eq (e : Engine ρ ω) (now : Instant) (maxAge : Int) (limit : Nat) (st : State ρ ω) :
    e.stale now maxAge limit st =
      if maxAge < 0 then .error (.failed (.validation .negativeAge))
      else if Time.hasDate (now - maxAge) then
        (e.cache.indexedBefore (now - maxAge) limit st.cache).mapError fun err =>
          .failed (storeFailure err)
      else .error .beforeDates := by
  simp only [stale, Int.natCast_one, Int.mul_one, Time.millis_one]

/-- Registers a server. -/
def registerServer (e : Engine ρ ω) (now : Instant) (endpoint : String) (st : State ρ ω) :
    Except IndexError String × State ρ ω :=
  match Endpoint.normalize endpoint with
  | .error fault => (.error (.validation fault), st)
  | .ok endpoint =>
    let (r, cache) := e.cache.registerServer endpoint now st.cache
    (match r with
      | .ok () => .ok endpoint
      | .error err => .error (storeFailure err),
      { st with cache })

/-- The registered servers. -/
def servers (e : Engine ρ ω) (st : State ρ ω) : Except IndexError (List ServerEntry) :=
  (e.cache.servers st.cache).mapError storeFailure

end Engine

end PaperIndex.Sync
