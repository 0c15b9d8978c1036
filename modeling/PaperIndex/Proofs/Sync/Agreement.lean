import PaperIndex.Proofs.Cache.Millis
import PaperIndex.Proofs.Sync.Responder
import PaperIndex.Proofs.Sync.Session

/-! # The engine over either cache

If the cache of an engine simulates that of another one, and fetches agree, all operations of the
two agree (`Engine.Simulates`, `serve_alike`). So in a session, during which the clock may go on as
it likes, a setup gives the same replies over both caches, its responder sees the same fetches, and
the caches hold the same records and servers in the end (`Setup.indistinct`).

Of the relational cache and the one in memory this is true as far as instants are whole
milliseconds (`replies_alike`). -/

namespace PaperIndex.Sync

open Time (Instant)
open PaperIndex.Cache (Mirrors)

variable {ρ ρ' ω : Type} {R : ρ → ρ' → Prop} {Good : Instant → Prop}

/-- The same world beside related caches. -/
structure State.Related (R : ρ → ρ' → Prop) (st : State ρ ω) (st' : State ρ' ω) : Prop where
  world : st'.world = st.world
  cache : R st.cache st'.cache

/-- **The engine `e'` simulates `e`** along a relation of the states of their caches, for the
instants that are good. -/
structure Engine.Simulates (R : ρ → ρ' → Prop) (Good : Instant → Prop) (e' : Engine ρ' ω)
    (e : Engine ρ ω) : Prop where
  cache : e'.cache.Simulates R Good e.cache
  fetched : ∀ uri entry {st st'}, State.Related R st st' →
    Alike (State.Related R) (e.fetched uri entry st) (e'.fetched uri entry st')
  scanLimit : e'.scanLimit = e.scanLimit

/-- The outcome of a call of the cache, put into the state. -/
theorem State.Related.stored {st : State ρ ω} {st' : State ρ' ω} (hst : st.Related R st')
    {α β : Type} {r : α × ρ} {r' : α × ρ'} (h : Alike R r r') (f : α → β) :
    Alike (State.Related R) (f r.1, { st with cache := r.2 }) (f r'.1, { st' with cache := r'.2 }) :=
  ⟨congrArg f h.1, hst.world, h.2⟩

/-- Where the cutoff of a scan from a good instant has a date, it is good, too. -/
def KeepsCutoffs (ticks : Nat) (Good : Instant → Prop) : Prop :=
  ∀ {now : Instant}, Good now → ∀ maxAge : Int,
    Time.hasDate (Time.millis ticks (now - maxAge * ticks)) = true → Good (now - maxAge * ticks)

namespace Engine

/-- How a refresh goes on after its fetch. -/
def resume (e : Engine ρ ω) (now : Instant) (uri : String) (entry : IndexedRecord)
    (fetched : Except FetchError (Option Fetched) × State ρ ω) :
    Except IndexError Refresh × State ρ ω :=
  match fetched.1 with
  | .error err => (.error (.transient (.fetch err)), fetched.2)
  | .ok none => (.error (.notFound uri), fetched.2)
  | .ok (some f) =>
    if f.cid = entry.contentHash then
      (.ok ⟨false, entry.contentHash, entry.contentHash⟩, fetched.2)
    else e.replace now uri entry f fetched.2

section Operations
variable {e : Engine ρ ω} {e' : Engine ρ' ω} (h : e'.Simulates R Good e) {st : State ρ ω}
  {st' : State ρ' ω}
include h

theorem index_alike {now : Instant} (hnow : Good now) (hst : st.Related R st')
    (uri cid endpoint : String) (value : Json) :
    Alike (State.Related R) (e.index now uri cid endpoint value st)
      (e'.index now uri cid endpoint value st') := by
  unfold index
  dsimp only
  split
  · exact ⟨rfl, hst⟩
  · next record hchecked =>
    obtain ⟨hanswer, hcache⟩ := h.cache.upsert
      ⟨uri, cid, endpoint, record.typeName, record.toText, now⟩ hnow hst.cache
    rw [hanswer]
    exact ⟨rfl, hst.world, hcache⟩

theorem track_alike {now : Instant} (hnow : Good now) (hst : st.Related R st')
    (uri cid endpoint : String) :
    Alike (State.Related R) (e.track now uri cid endpoint st) (e'.track now uri cid endpoint st') :=
  hst.stored (h.cache.updateSource uri cid endpoint hnow hst.cache) (foundOr uri)

theorem delete_alike (hst : st.Related R st') (uri : String) :
    Alike (State.Related R) (e.delete uri st) (e'.delete uri st') :=
  hst.stored (h.cache.delete uri hst.cache) (foundOr uri)

theorem check_alike (hst : st.Related R st') (uri : String) :
    Alike (State.Related R) (e.check uri st) (e'.check uri st') := by
  unfold check
  rw [h.cache.get uri hst.cache]
  split
  · exact ⟨rfl, hst⟩
  · exact ⟨rfl, hst⟩
  · next entry hget =>
    obtain ⟨hanswer, hleft⟩ := h.fetched uri entry hst
    refine ⟨?_, hleft⟩
    change Check.mk uri _ = Check.mk uri _
    change (e'.repository.fetch _ _ _ _).1 = (e.repository.fetch _ _ _ _).1 at hanswer
    rw [hanswer]

theorem replace_alike {now : Instant} (hnow : Good now) (hst : st.Related R st')
    (uri : String) (entry : IndexedRecord) (fetched : Fetched) :
    Alike (State.Related R) (e.replace now uri entry fetched st)
      (e'.replace now uri entry fetched st') := by
  unfold replace
  split
  · exact ⟨rfl, hst⟩
  · next record hvalue =>
    exact hst.stored (h.cache.updateContent uri fetched.cid record.toText hnow hst.cache)
      fun r => (foundOr uri r).map fun _ => Refresh.mk true entry.contentHash fetched.cid

theorem refresh_alike {now : Instant} (hnow : Good now) (hst : st.Related R st')
    (uri : String) :
    Alike (State.Related R) (e.refresh now uri st) (e'.refresh now uri st') := by
  unfold refresh
  rw [h.cache.get uri hst.cache]
  split
  · exact ⟨rfl, hst⟩
  · exact ⟨rfl, hst⟩
  · next entry hget =>
    obtain ⟨hanswer, hleft⟩ := h.fetched uri entry hst
    change Alike _ (e.resume now uri entry (e.fetched uri entry st))
      (e'.resume now uri entry (e'.fetched uri entry st'))
    unfold resume
    rw [hanswer]
    split
    · exact ⟨rfl, hleft⟩
    · exact ⟨rfl, hleft⟩
    · next f hfetch =>
      by_cases hcid : f.cid = entry.contentHash
      · rw [if_pos hcid, if_pos hcid]
        exact ⟨rfl, hleft⟩
      · rw [if_neg hcid, if_neg hcid]
        exact replace_alike h hnow hleft uri entry f

theorem stale_alike {ticks : Nat} (hcutoff : KeepsCutoffs ticks Good) {now : Instant}
    (hnow : Good now) (hst : st.Related R st') (maxAge : Int) (limit : Nat) :
    e'.stale now maxAge limit st' ticks = e.stale now maxAge limit st ticks := by
  unfold stale
  dsimp only
  split
  · rfl
  · split
    · next hdate => rw [h.cache.indexedBefore limit (hcutoff hnow maxAge hdate) hst.cache]
    · rfl

theorem sweepOne_alike {now : Instant} (hnow : Good now) (hst : st.Related R st')
    (entry : IndexedRecord) :
    Alike (State.Related R) (e.sweepOne now entry st) (e'.sweepOne now entry st') := by
  have hrefresh := refresh_alike h hnow hst entry.uri
  unfold sweepOne
  rcases hx : e.refresh now entry.uri st with ⟨r, left⟩
  rcases hx' : e'.refresh now entry.uri st' with ⟨r', left'⟩
  rw [hx, hx'] at hrefresh
  obtain ⟨rfl, hleft⟩ : r' = r ∧ left.Related R left' := hrefresh
  rcases r' with err | ⟨_ | _, previous, current⟩
  · exact ⟨rfl, hleft⟩
  · exact hleft.stored (h.cache.touchVerified entry.uri current hnow hleft.cache)
      fun _ => Swept.confirmed
  · exact ⟨rfl, hleft⟩

theorem sweepAll_alike {clock : Nat → Instant} (hclock : ∀ n, Good (clock n))
    (hst : st.Related R st') (entries : List IndexedRecord) :
    Alike (State.Related R) (e.sweepAll clock entries st) (e'.sweepAll clock entries st') := by
  induction entries generalizing clock st st' with
  | nil => exact ⟨rfl, hst⟩
  | cons entry entries ih =>
    obtain ⟨houtcome, hone⟩ := sweepOne_alike h (hclock 0) hst entry
    obtain ⟨houtcomes, hall⟩ := ih (fun n => hclock (n + 1)) hone
    exact ⟨congrArg₂ List.cons houtcome houtcomes, hall⟩

theorem markAll_alike {now : Instant} (hnow : Good now) (endpoints : List String)
    {cache : ρ} {cache' : ρ'} (hcache : R cache cache') :
    R (e.markAll now endpoints cache) (e'.markAll now endpoints cache') := by
  unfold markAll
  induction endpoints generalizing cache cache' with
  | nil => exact hcache
  | cons endpoint endpoints ih => exact ih (h.cache.markSwept endpoint hnow hcache).2

theorem sweep_alike {ticks : Nat} (hcutoff : KeepsCutoffs ticks Good) {now : Instant}
    (hnow : Good now) {later : Nat → Instant} (hlater : ∀ n, Good (later n))
    (hst : st.Related R st') (maxAge : Int) (limit : Nat) :
    Alike (State.Related R) (e.sweep now maxAge limit st ticks later)
      (e'.sweep now maxAge limit st' ticks later) := by
  unfold sweep
  rw [stale_alike h hcutoff hnow hst]
  split
  · exact ⟨rfl, hst⟩
  · next entries hstale =>
    obtain ⟨houtcomes, hall⟩ := sweepAll_alike h hlater hst entries
    exact ⟨congrArg (Except.ok <| Report.of ·) houtcomes, hall.world,
      markAll_alike h (hlater entries.length) _ hall.cache⟩

theorem registerServer_alike {now : Instant} (hnow : Good now)
    (hst : st.Related R st') (endpoint : String) :
    Alike (State.Related R) (e.registerServer now endpoint st)
      (e'.registerServer now endpoint st') := by
  unfold registerServer
  split
  · exact ⟨rfl, hst⟩
  · next endpoint hnormal =>
    obtain ⟨hanswer, hcache⟩ := h.cache.registerServer endpoint hnow hst.cache
    dsimp only
    rw [hanswer]
    exact ⟨rfl, hst.world, hcache⟩

theorem servers_alike (hst : st.Related R st') : e'.servers st' = e.servers st := by
  unfold servers
  rw [h.cache.servers hst.cache]

omit h in
theorem answered_alike {α : Type} {r : Except IndexError α × State ρ ω}
    {r' : Except IndexError α × State ρ' ω} (hr : Alike (State.Related R) r r')
    (reply : α → Reply) :
    Alike (State.Related R) (answered reply r) (answered reply r') :=
  ⟨congrArg (fun r : Except IndexError α => (r.mapError ScanStop.failed).map reply) hr.1, hr.2⟩

/-- **An operation** is answered alike, and leaves related states. -/
theorem serve_alike {ticks : Nat} (hcutoff : KeepsCutoffs ticks Good) {now : Instant}
    (hnow : Good now) {later : Nat → Instant} (hlater : ∀ n, Good (later n))
    (hst : st.Related R st') (q : Request) :
    Alike (State.Related R) (e.serve now q st ticks later) (e'.serve now q st' ticks later) := by
  cases q with
  | index uri cid endpoint value =>
    exact answered_alike (index_alike h hnow hst uri cid endpoint value) .record
  | track uri cid endpoint =>
    exact answered_alike (track_alike h hnow hst uri cid endpoint) fun _ => .done
  | delete uri => exact answered_alike (delete_alike h hst uri) fun _ => .done
  | check uri =>
    obtain ⟨hcheck, hleft⟩ := check_alike h hst uri
    exact ⟨congrArg (Except.ok <| Reply.check ·) hcheck, hleft⟩
  | refresh uri => exact answered_alike (refresh_alike h hnow hst uri) .refresh
  | detect maxAge =>
    refine ⟨congrArg (Except.map Reply.entries) ?_, hst⟩
    unfold detect
    rw [stale_alike h hcutoff hnow hst, h.scanLimit]
  | sweep maxAge limit =>
    obtain ⟨hreport, hleft⟩ := sweep_alike h hcutoff hnow hlater hst maxAge limit
    exact ⟨congrArg (Except.map Reply.report) hreport, hleft⟩
  | registerServer endpoint =>
    exact answered_alike (registerServer_alike h hnow hst endpoint) .endpoint
  | servers => exact answered_alike ⟨servers_alike h hst, hst⟩ .servers

end Operations

end Engine

/-! ### Responders -/

theorem Edit.apply_related {cache : Cache.Store ρ} {cache' : Cache.Store ρ'}
    (h : cache'.Simulates R Good cache) {now : Instant} (hnow : Good now)
    (edits : List Edit) {st : ρ} {st' : ρ'} (hst : R st st') :
    R (edits.foldl (apply cache now) st) (edits.foldl (apply cache' now) st') := by
  induction edits generalizing st st' with
  | nil => exact hst
  | cons edit edits ih =>
    refine ih ?_
    cases edit with
    | delete uri => exact (h.delete uri hst).2
    | rewrite uri cid body => exact (h.updateContent uri cid body hnow hst).2

/-- **The engines of a setup** simulate each other as far as their caches do. -/
theorem Setup.simulates (s : Setup ω) {cache : Cache.Store ρ} {cache' : Cache.Store ρ'}
    (h : cache'.Simulates R Good cache) (now : Instant) {fetching : Nat → Instant}
    (hfetching : ∀ n, Good (fetching n)) :
    (s.engine cache' now fetching).Simulates R Good (s.engine cache now fetching) where
  cache := h.failing s.failing
  fetched uri entry st st' hst := by
    obtain ⟨st, world⟩ := st
    obtain ⟨st', world'⟩ := st'
    obtain ⟨rfl, hcache⟩ : world' = world ∧ R st st' := ⟨hst.world, hst.cache⟩
    exact ⟨rfl, rfl, Edit.apply_related h (hfetching _) _ hcache⟩
  scanLimit := rfl

/-! ### Sessions -/

/-- A request, with what the clock reads while it is served. -/
structure Timed where
  /-- The first reading. -/
  reading : Int
  /-- For each entry of a sweep, and after the last one for the servers. -/
  later : Nat → Int
  /-- At each fetch of the session, when the responder changes the cache. -/
  fetching : Nat → Int
  request : Request

/-- A request while which the clock stands still. -/
def Timed.still (call : Int × Request) : Timed :=
  ⟨call.1, fun _ => call.1, fun _ => call.1, call.2⟩

/-- All readings of the clock meet a condition. -/
structure Timed.Reads (P : Int → Prop) (call : Timed) : Prop where
  reading : P call.reading
  later : ∀ n, P (call.later n)
  fetching : ∀ n, P (call.fetching n)

theorem Timed.Reads.still {P : Int → Prop} {call : Int × Request} (h : P call.1) :
    (Timed.still call).Reads P := ⟨h, fun _ => h, fun _ => h⟩

/-- Serves a request by a clock of which so many ticks make a millisecond. -/
def Setup.serve (s : Setup ω) (ticks : Nat) (cache : Cache.Store ρ) (call : Timed)
    (st : State ρ (Watched ω)) : Except ScanStop Reply × State ρ (Watched ω) :=
  let now := Time.told call.reading ticks
  let e := s.engine cache now fun n => Time.told (call.fetching n) ticks
  e.serve now call.request st ticks fun n => Time.told (call.later n) ticks

/-- The state after requests. -/
def Setup.runBy (s : Setup ω) (ticks : Nat) (cache : Cache.Store ρ) :
    List Timed → State ρ (Watched ω) → State ρ (Watched ω)
  | [], st => st
  | call :: session, st => s.runBy ticks cache session (s.serve ticks cache call st).2

/-- The replies to requests. -/
def Setup.replies (s : Setup ω) (ticks : Nat) (cache : Cache.Store ρ) :
    List Timed → State ρ (Watched ω) → List (Except ScanStop Reply)
  | [], _ => []
  | call :: session, st =>
    let r := s.serve ticks cache call st
    r.1 :: s.replies ticks cache session r.2

/-- The state after requests, by a clock that counts milliseconds and stands still meanwhile. -/
def Setup.run (s : Setup ω) (cache : Cache.Store ρ) (session : List (Int × Request)) :
    State ρ (Watched ω) → State ρ (Watched ω) :=
  s.runBy 1 cache (session.map Timed.still)

/-- **Two caches cannot be told apart** by a session: the replies over both are the same, the
responder sees the same fetches, and in the end the caches hold the same records and servers. -/
structure Setup.Indistinct (s : Setup ω) (ticks : Nat) (session : List Timed)
    (cache : Cache.Store ρ) (st : State ρ (Watched ω)) (cache' : Cache.Store ρ')
    (st' : State ρ' (Watched ω)) : Prop where
  replies : s.replies ticks cache' session st' = s.replies ticks cache session st
  world : (s.runBy ticks cache' session st').world = (s.runBy ticks cache session st).world
  records : ∀ uri, cache'.get uri (s.runBy ticks cache' session st').cache =
    cache.get uri (s.runBy ticks cache session st).cache
  servers : cache'.servers (s.runBy ticks cache' session st').cache =
    cache.servers (s.runBy ticks cache session st).cache

theorem Setup.Indistinct.trans {s : Setup ω} {ticks : Nat} {session : List Timed}
    {ρ'' : Type} {cache : Cache.Store ρ} {cache' : Cache.Store ρ'} {cache'' : Cache.Store ρ''}
    {st : State ρ (Watched ω)} {st' : State ρ' (Watched ω)} {st'' : State ρ'' (Watched ω)}
    (h : s.Indistinct ticks session cache st cache' st')
    (h' : s.Indistinct ticks session cache' st' cache'' st'') :
    s.Indistinct ticks session cache st cache'' st'' where
  replies := h'.replies.trans h.replies
  world := h'.world.trans h.world
  records uri := (h'.records uri).trans (h.records uri)
  servers := h'.servers.trans h.servers

section Simulated
variable {cache : Cache.Store ρ} {cache' : Cache.Store ρ'} (h : cache'.Simulates R Good cache)
  (s : Setup ω) {ticks : Nat} (hcutoff : KeepsCutoffs ticks Good) {session : List Timed}
  (hsession : ∀ call ∈ session, call.Reads fun reading => Good (Time.told reading ticks))
  {st : State ρ (Watched ω)} {st' : State ρ' (Watched ω)} (hst : st.Related R st')
include h hcutoff hsession hst

/-- **A session** has the same replies over caches of which one simulates the other, and leaves
related states. -/
theorem Setup.session_alike :
    s.replies ticks cache' session st' = s.replies ticks cache session st ∧
      (s.runBy ticks cache session st).Related R (s.runBy ticks cache' session st') := by
  induction session generalizing st st' with
  | nil => exact ⟨rfl, hst⟩
  | cons call session ih =>
    obtain ⟨hcall, hsession⟩ := List.forall_mem_cons.1 hsession
    obtain ⟨hreply, hone⟩ := Engine.serve_alike
      (s.simulates h (Time.told call.reading ticks) hcall.fetching) hcutoff hcall.reading
      hcall.later hst call.request
    obtain ⟨hreplies, hall⟩ := ih hsession hone
    exact ⟨congrArg₂ List.cons hreply hreplies, hall⟩

theorem Setup.indistinct : s.Indistinct ticks session cache st cache' st' := by
  obtain ⟨hreplies, hstates⟩ := s.session_alike h hcutoff hsession hst
  exact ⟨hreplies, hstates.world, fun uri => h.get uri hstates.cache, h.servers hstates.cache⟩

end Simulated

/-! ### The two caches -/

theorem Timed.Reads.told {P : Int → Prop} {call : Timed} (h : call.Reads P) {Q : Instant → Prop}
    {ticks : Nat} (hQ : ∀ {reading}, P reading → Q (Time.told reading ticks)) :
    call.Reads fun reading => Q (Time.told reading ticks) :=
  ⟨hQ h.reading, fun n => hQ (h.later n), fun n => hQ (h.fetching n)⟩

/-- Whatever the clock reads, what it tells has a date. -/
theorem Timed.reads_dated (call : Timed) (ticks : Nat) :
    call.Reads fun reading => Time.hasDate (Time.millis ticks (Time.told reading ticks)) = true :=
  ⟨Time.hasDate_millis_told _ ticks, fun _ => Time.hasDate_millis_told _ ticks,
    fun _ => Time.hasDate_millis_told _ ticks⟩

/-- The states that a session leads to which starts with empty caches that keep milliseconds. -/
theorem Setup.run_mirrors (s : Setup ω) (ticks : Nat) (session : List Timed) (world : ω) :
    (s.runBy ticks (Cache.Memory.store.inMillis ticks) session ⟨.empty, ⟨[], world⟩⟩).Related
      Mirrors (s.runBy ticks (Cache.Relational.store.inMillis ticks) session
        ⟨.empty, ⟨[], world⟩⟩) :=
  (s.session_alike (Cache.mirrors_simulates.inMillis ticks) (fun _ _ hdate => hdate)
    (fun call _ => call.reads_dated ticks) ⟨rfl, .empty⟩).2

/-- **The caches cannot be told apart** where instants are whole milliseconds. Whatever is asked of
the engine, whatever the clock reads and whatever the responder answers and does meanwhile, the
relational cache, which keeps milliseconds, cannot be told from the cache in memory if the instants
are cut on their way into this one, too. If all readings are whole milliseconds, it cannot be told
from the cache in memory as it is. -/
theorem replies_alike (s : Setup ω) (world : ω) {ticks : Nat} (hticks : 0 < ticks)
    (session : List Timed) :
    let memory := Cache.Memory.store
    let relational := Cache.Relational.store.inMillis ticks
    s.Indistinct ticks session (memory.inMillis ticks) ⟨.empty, ⟨[], world⟩⟩
        relational ⟨.empty, ⟨[], world⟩⟩ ∧
      ((∀ call ∈ session, call.Reads fun reading => (ticks : Int) ∣ reading) →
        s.Indistinct ticks session memory ⟨.empty, ⟨[], world⟩⟩
          relational ⟨.empty, ⟨[], world⟩⟩) := by
  intro memory relational
  have hcut : s.Indistinct ticks session (memory.inMillis ticks) ⟨.empty, ⟨[], world⟩⟩
      relational ⟨.empty, ⟨[], world⟩⟩ :=
    s.indistinct (Cache.mirrors_simulates.inMillis ticks) (fun _ _ hdate => hdate)
      (fun call _ => call.reads_dated ticks) ⟨rfl, .empty⟩
  refine ⟨hcut, fun hwhole => .trans ?_ hcut⟩
  refine s.indistinct (Cache.Memory.cut_simulates hticks) ?_ (fun call hcall => ?_) ⟨rfl, rfl⟩
  · exact fun hnow maxAge _ => Int.dvd_sub hnow (Int.dvd_mul_left ..)
  · exact (hwhole call hcall).told Time.dvd_told

/-- An engine in front of a responder that knows no record. -/
def unanswered : Setup Unit where
  failing := []
  responder := { respond := fun _ _ _ _ => (⟨.ok none, []⟩, ()) }
  scanLimit := defaultScanLimit

/-- A review. -/
def soundReview : Record := .review ⟨"at://a/c/e", "Sound.", "2024-01-01T00:00:00Z"⟩

/-- The review is indexed at one reading of the clock, and at another one the engine is asked what
has not been confirmed since. -/
def indexedThenAsked (indexed asked : Int) : List Timed :=
  [.still (indexed, .index "at://a/c/r" "c1" "p" soundReview.toJson), .still (asked, .detect 0)]

/-- Asked in the next millisecond, by a clock that counts nanoseconds, the engine lists the review
over both caches. -/
theorem replies_alike_next_millisecond :
    let session := indexedThenAsked 1700000000000000000 1700000000001000000
    let memory := Cache.Memory.store
    let relational := Cache.Relational.store.inMillis 1000000
    0 < 1000000 ∧ (∀ call ∈ session, call.Reads fun reading => ((1000000 : Nat) : Int) ∣ reading) ∧
      unanswered.Indistinct 1000000 session memory ⟨.empty, ⟨[], ()⟩⟩ relational
        ⟨.empty, ⟨[], ()⟩⟩ ∧
      unanswered.replies 1000000 relational session ⟨.empty, ⟨[], ()⟩⟩ =
        [.ok (.record soundReview), .ok (.entries [⟨"at://a/c/r", "c1", "p", soundReview.typeName,
          soundReview.toText, 1700000000000000000⟩])] := by
  intro session memory relational
  have hwhole : ∀ call ∈ session, call.Reads fun reading => ((1000000 : Nat) : Int) ∣ reading := by
    refine List.forall_mem_cons.2 ⟨.still ?_, List.forall_mem_singleton.2 (.still ?_)⟩ <;> decide
  have halike := (replies_alike unanswered () (by decide : 0 < 1000000) session).2 hwhole
  refine ⟨by decide, hwhole, halike, halike.replies.trans ?_⟩
  unfold session
  decide +kernel

/-- **Within one millisecond** the caches differ. If the review is indexed in its first part and the
engine is asked in its last part, then the review is stale in memory; but the relational cache has
it confirmed when the millisecond starts, and takes the question back to this instant, too. -/
theorem replies_differ_within_millisecond :
    let session := indexedThenAsked 1700000000000100000 1700000000000900000
    let memory := Cache.Memory.store
    let relational := Cache.Relational.store.inMillis 1000000
    unanswered.replies 1000000 memory session ⟨.empty, ⟨[], ()⟩⟩ =
        [.ok (.record soundReview), .ok (.entries [⟨"at://a/c/r", "c1", "p", soundReview.typeName,
          soundReview.toText, 1700000000000100000⟩])] ∧
      unanswered.replies 1000000 relational session ⟨.empty, ⟨[], ()⟩⟩ =
        [.ok (.record soundReview), .ok (.entries [])] ∧
      ¬unanswered.Indistinct 1000000 session memory ⟨.empty, ⟨[], ()⟩⟩ relational
        ⟨.empty, ⟨[], ()⟩⟩ := by
  intro session memory relational
  have hmemory : unanswered.replies 1000000 memory session ⟨.empty, ⟨[], ()⟩⟩ =
      [.ok (.record soundReview), .ok (.entries [⟨"at://a/c/r", "c1", "p", soundReview.typeName,
        soundReview.toText, 1700000000000100000⟩])] := by
    unfold session memory
    decide +kernel
  have hrelational : unanswered.replies 1000000 relational session ⟨.empty, ⟨[], ()⟩⟩ =
      [.ok (.record soundReview), .ok (.entries [])] := by
    unfold session relational
    decide +kernel
  refine ⟨hmemory, hrelational, fun h => ?_⟩
  cases hmemory.symm.trans (h.replies.symm.trans hrelational)

end PaperIndex.Sync
