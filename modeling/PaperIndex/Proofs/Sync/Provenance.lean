import PaperIndex.Proofs.Record.RoundTrip
import PaperIndex.Proofs.Sync.Types

/-! # Where the content of an entry comes from

The engine is offered records: those that it is asked to index and those that the repository answers
with (`Engine.offers`). The body and the content identifier of an entry come from one offer for its
URI, unless the entry has been tracked since (`exists_content_of_applyWrites`,
`mem_offers_of_content`). The body is the text of an accepted record, so it can be read again. -/

namespace PaperIndex.Sync

open Time (Instant)

/-! ### Content -/

/-- The content identifier and the record that a change writes together. -/
def Change.content? : Change → Option (String × Record)
  | .indexed cid _ record => some (cid, record)
  | .refreshed cid record => some (cid, record)
  | _ => none

/-- Whether a change notes a source without the content. -/
def Change.isTracking : Change → Bool
  | .tracked _ _ => true
  | _ => false

theorem Change.isTracking_of_content? {c : Change} {x : String × Record} (h : c.content? = some x) :
    c.isTracking = false := by
  cases c with
  | tracked cid endpoint => cases h
  | _ => rfl

/-- Whether a request is one to note a source. -/
def Request.isTracking : Request → Bool
  | .track _ _ _ => true
  | _ => false

/-- Whether a URI has been tracked. -/
def TrackedIn (uri : String) (log : List Write) : Prop :=
  ∃ w ∈ log, w.uri = uri ∧ w.change.isTracking = true

theorem TrackedIn.mono {uri : String} {log log' : List Write} (h : TrackedIn uri log)
    (hsub : log ⊆ log') : TrackedIn uri log' := by
  obtain ⟨w, hw, huri, htracking⟩ := h
  exact ⟨w, hsub hw, huri, htracking⟩

/-- An entry has the content of a write, and its identifier unless it was tracked after that. -/
structure HasContent (uri : String) (after : List Write) (cid : String) (record : Record)
    (entry : IndexedRecord) : Prop where
  uri_eq : entry.uri = uri
  body_eq : entry.body = record.toText
  contentHash_eq : ¬TrackedIn uri after → entry.contentHash = cid

/-- **The content of an entry** was written to it, and nothing has been written over it since. -/
theorem exists_content_of_applyWrites {uri : String} {log : List Write} {entry : IndexedRecord}
    (h : applyWrites (fun _ => none) log uri = some entry) :
    ∃ before w after cid record, log = before ++ w :: after ∧ w.uri = uri ∧
      w.change.content? = some (cid, record) ∧ HasContent uri after cid record entry := by
  induction log using List.reverseRecOn generalizing entry with
  | nil => cases h
  | append_singleton log w ih =>
    -- An entry that keeps its URI and body keeps its content, up to one more write after it.
    have hkeep : ∀ {old}, applyWrites (fun _ => none) log uri = some old → entry.uri = old.uri →
        entry.body = old.body →
        (¬TrackedIn uri [w] → entry.contentHash = old.contentHash) →
        ∃ before w' after cid record, log ++ [w] = before ++ w' :: after ∧ w'.uri = uri ∧
          w'.change.content? = some (cid, record) ∧ HasContent uri after cid record entry := by
      intro old hold huri hbody hhash
      obtain ⟨before, w', after, cid, record, rfl, hw', hcontent, hhas⟩ := ih hold
      refine ⟨before, w', after ++ [w], cid, record, by simp, hw', hcontent,
        huri.trans hhas.uri_eq, hbody.trans hhas.body_eq, fun htracked => ?_⟩
      rw [hhash fun hlast => htracked (hlast.mono (List.subset_append_right after [w]))]
      exact hhas.contentHash_eq fun hafter =>
        htracked (hafter.mono (List.subset_append_left after [w]))
    rw [applyWrites_snoc] at h
    by_cases hw : w.uri = uri
    · rw [if_pos hw] at h
      obtain ⟨now, uri', change⟩ := w
      obtain rfl : uri' = uri := hw
      cases change with
      | indexed cid endpoint record =>
        cases h
        exact ⟨log, _, [], cid, record, rfl, rfl, rfl, rfl, rfl, fun _ => rfl⟩
      | refreshed cid record =>
        obtain ⟨old, hold, rfl⟩ := Option.map_eq_some_iff.1 h
        obtain ⟨_, _, _, _, _, _, _, _, hhas⟩ := ih hold
        exact ⟨log, _, [], cid, record, rfl, rfl, rfl, hhas.uri_eq, rfl, fun _ => rfl⟩
      | tracked cid endpoint =>
        obtain ⟨old, hold, rfl⟩ := Option.map_eq_some_iff.1 h
        exact hkeep hold rfl rfl fun htracked =>
          absurd ⟨_, List.mem_singleton_self _, rfl, rfl⟩ htracked
      | confirmed cid =>
        obtain ⟨old, hold, rfl⟩ := Option.map_eq_some_iff.1 h
        refine hkeep hold ?_ ?_ fun _ => ?_ <;> split <;> rfl
      | deleted => cases h
    · rw [if_neg hw] at h
      exact hkeep h rfl rfl fun _ => rfl

/-! ### Offers -/

/-- A record that the engine is offered for a URI, and its content identifier. -/
structure Offer where
  uri : String
  cid : String
  value : Json
deriving Repr

namespace Engine

variable {ρ ω : Type}

/-- What the repository offers for the entry of a URI. -/
def answers (e : Engine ρ ω) (uri : String) (st : State ρ ω) : List Offer :=
  match e.cache.get uri st.cache with
  | .ok (some entry) =>
    match (e.fetched uri entry st).1 with
    | .ok (some f) => [⟨uri, f.cid, f.value⟩]
    | _ => []
  | _ => []

/-- What the repository offers in a sweep of entries. -/
def sweepAnswers (e : Engine ρ ω) (now : Instant) : List IndexedRecord → State ρ ω → List Offer
  | [], _ => []
  | entry :: entries, st =>
    e.answers entry.uri st ++ e.sweepAnswers now entries (e.sweepOne now entry st).2

/-- **The offers of a request**: the record to be indexed, or those that the repository answers
with. -/
def offers (e : Engine ρ ω) (now : Instant) : Request → State ρ ω → List Offer
  | .index uri cid _ value, _ => [⟨uri, cid, value⟩]
  | .check uri, st => e.answers uri st
  | .refresh uri, st => e.answers uri st
  | .sweep maxAge limit, st =>
    match e.stale now maxAge limit st with
    | .ok entries => e.sweepAnswers now entries st
    | .error _ => []
  | _, _ => []

/-- A write replaces the content of the entry of a URI by that of an offer. -/
def Refreshed (offers : List Offer) (w : Write) : Prop :=
  ∃ offer ∈ offers, ∃ record, Record.ofJson offer.value = .ok record ∧
    w.uri = offer.uri ∧ w.change = .refreshed offer.cid record

/-- **What a request may write**, given its offers. -/
inductive Justified (offers : List Offer) : Request → Write → Prop
  | indexed {now uri cid endpoint value record} (hparse : ∃ u, RecordUri.parse uri = .ok u)
    (hoffer : ⟨uri, cid, value⟩ ∈ offers) (hvalue : Record.ofJson value = .ok record) :
    Justified offers (.index uri cid endpoint value) ⟨now, uri, .indexed cid endpoint record⟩
  | refreshed {q w} (hq : q.isTracking = false) (h : Refreshed offers w) : Justified offers q w
  | tracked {now uri cid endpoint} :
    Justified offers (.track uri cid endpoint) ⟨now, uri, .tracked cid endpoint⟩
  | confirmed {q now uri cid} (hq : q.isTracking = false) :
    Justified offers q ⟨now, uri, .confirmed cid⟩
  | deleted {now uri} : Justified offers (.delete uri) ⟨now, uri, .deleted⟩

variable {e : Engine ρ ω} {now : Instant} {st : State ρ ω}

theorem refreshed_of_mem_refreshWrites {uri : String} {w : Write}
    (h : w ∈ e.refreshWrites now uri st) : Refreshed (e.answers uri st) w := by
  have hcases := e.refresh_cases now uri st
  unfold refreshWrites at h
  generalize e.refresh now uri st = x at hcases h
  cases hcases with
  | @written entry st' f record r cache hget hfetch hcid hvalue hupdate =>
    have hoffered : e.offered? uri st = some record := by
      unfold offered?
      simp only [hget, hfetch, hvalue]
      rfl
    have hanswers : e.answers uri st = [⟨uri, f.cid, f.value⟩] := by
      unfold answers
      simp only [hget, hfetch]
    cases hfound : foundOr uri r with
    | error err =>
      rw [hfound] at h
      cases h
    | ok u =>
      rw [hfound] at h
      simp only [Except.map, hoffered, Option.toList_some, List.map_cons, List.map_nil,
        List.mem_singleton] at h
      subst h
      rw [hanswers]
      exact ⟨_, List.mem_singleton_self _, record, hvalue, rfl, rfl⟩
  | _ => cases h

theorem mem_sweepOneWrites {uri : String} {w : Write} (h : w ∈ e.sweepOneWrites now uri st) :
    (∃ cid, w = ⟨now, uri, .confirmed cid⟩) ∨ Refreshed (e.answers uri st) w := by
  unfold sweepOneWrites at h
  split at h
  · split at h
    · exact .inl ⟨_, List.mem_singleton.1 h⟩
    · cases h
  · exact .inr (refreshed_of_mem_refreshWrites h)

theorem mem_sweepWrites {entries : List IndexedRecord} {w : Write}
    (h : w ∈ e.sweepWrites now entries st) :
    (∃ uri cid, w = ⟨now, uri, .confirmed cid⟩) ∨
      Refreshed (e.sweepAnswers now entries st) w := by
  induction entries generalizing st with
  | nil => cases h
  | cons entry entries ih =>
    rcases List.mem_append.1 h with hone | hrest
    · rcases mem_sweepOneWrites hone with ⟨cid, rfl⟩ | ⟨offer, hoffer, hw⟩
      · exact .inl ⟨_, _, rfl⟩
      · exact .inr ⟨offer, List.mem_append_left _ hoffer, hw⟩
    · rcases ih hrest with hconfirmed | ⟨offer, hoffer, hw⟩
      · exact .inl hconfirmed
      · exact .inr ⟨offer, List.mem_append_right _ hoffer, hw⟩

/-- **The writes of a request** are justified by its offers. -/
theorem justified_of_mem_writes {q : Request} {w : Write} (h : w ∈ e.writes now q st) :
    Justified (e.offers now q st) q w := by
  cases q with
  | index uri cid endpoint value =>
    rw [writes] at h
    split at h
    · next record hok =>
      obtain rfl := List.mem_singleton.1 h
      obtain ⟨hparse, hvalue⟩ := index_eq_ok hok
      exact .indexed hparse (List.mem_singleton_self _) hvalue
    · cases h
  | track uri cid endpoint =>
    rw [writes] at h
    split at h
    · obtain rfl := List.mem_singleton.1 h
      exact .tracked
    · cases h
  | delete uri =>
    rw [writes] at h
    split at h
    · obtain rfl := List.mem_singleton.1 h
      exact .deleted
    · cases h
  | refresh uri => exact .refreshed rfl (refreshed_of_mem_refreshWrites h)
  | sweep maxAge limit =>
    rw [writes] at h
    rw [offers]
    cases hstale : e.stale now maxAge limit st with
    | error stop => rw [hstale] at h; cases h
    | ok entries =>
      rw [hstale] at h
      rcases mem_sweepWrites h with ⟨uri, cid, rfl⟩ | hrefreshed
      · exact .confirmed rfl
      · exact .refreshed rfl hrefreshed
  | check uri => cases h
  | detect maxAge => cases h
  | registerServer endpoint => cases h
  | servers => cases h

namespace Justified
variable {offers : List Offer} {q : Request} {w : Write}

/-- A request that tracks writes nothing else, and no other request tracks. -/
theorem isTracking_eq (h : Justified offers q w) : w.change.isTracking = q.isTracking := by
  cases h with
  | indexed => rfl
  | refreshed hq h =>
    obtain ⟨offer, -, record, -, -, hchange⟩ := h
    rw [hchange, hq]
    rfl
  | tracked => rfl
  | confirmed hq => exact hq.symm
  | deleted => rfl

/-- The content of a write comes from an offer for its URI. -/
theorem exists_offer (h : Justified offers q w) {cid : String} {record : Record}
    (hw : w.change.content? = some (cid, record)) :
    ∃ offer ∈ offers, offer.uri = w.uri ∧ offer.cid = cid ∧
      Record.ofJson offer.value = .ok record := by
  cases h with
  | indexed hparse hoffer hvalue =>
    cases hw
    exact ⟨_, hoffer, rfl, rfl, hvalue⟩
  | refreshed hq h =>
    obtain ⟨offer, hoffer, record', hvalue, huri, hchange⟩ := h
    rw [hchange] at hw
    cases hw
    exact ⟨offer, hoffer, huri.symm, rfl, hvalue⟩
  | _ => cases hw

/-- An entry is only created under the URI of a record. -/
theorem exists_parse (h : Justified offers q w) {record : Record}
    (hw : w.change.indexed? = some record) : ∃ u, RecordUri.parse w.uri = .ok u := by
  cases h with
  | indexed hparse => exact hparse
  | refreshed hq h =>
    obtain ⟨offer, -, record', -, -, hchange⟩ := h
    rw [hchange] at hw
    cases hw
  | _ => cases hw

end Justified

/-- Where in a session a write of its log was done. -/
theorem exists_call_of_log_eq {session : List (Instant × Request)} {st : State ρ ω}
    {before : List Write} {w : Write} {after : List Write}
    (h : e.log session st = before ++ w :: after) :
    ∃ earlier call later pre post, session = earlier ++ call :: later ∧
      e.writes call.1 call.2 (e.run earlier st) = pre ++ w :: post ∧
      after = post ++ e.log later (e.run (earlier ++ [call]) st) := by
  induction session generalizing st before with
  | nil => simp [log] at h
  | cons call session ih =>
    have hlater : ∀ before' : List Write,
        e.log session (e.serve call.1 call.2 st).2 = before' ++ w :: after →
        ∃ earlier call' later pre post, call :: session = earlier ++ call' :: later ∧
          e.writes call'.1 call'.2 (e.run earlier st) = pre ++ w :: post ∧
          after = post ++ e.log later (e.run (earlier ++ [call']) st) := by
      intro before' hlog
      obtain ⟨earlier, call', later, pre, post, hsession, hw, hafter⟩ := ih hlog
      exact ⟨call :: earlier, call', later, pre, post, congrArg (call :: ·) hsession, hw, hafter⟩
    rcases List.append_eq_append_iff.1 h with ⟨mid, -, hlog⟩ | ⟨mid, hwrites, hlog⟩
    · exact hlater mid hlog
    · cases mid with
      | nil => exact hlater [] hlog.symm
      | cons w' post =>
        obtain ⟨rfl, rfl⟩ := List.cons.inj hlog
        exact ⟨[], call, session, before, post, rfl, hwrites, rfl⟩

/-! ### Runs -/

/-- **The content of the entries follows the offers.** After every run from a state, an entry has
the body that one offer of the run for its URI has in its accepted form, and the content identifier
of the same offer, unless the entry was tracked since. The URI is that of a record, and the body can
be read as the record that it is the text of. -/
def ContentsFollow (e : Engine ρ ω) (entryAt : ρ → String → Option IndexedRecord)
    (st : State ρ ω) : Prop :=
  ∀ (session : List (Instant × Request)) (uri : String) (entry : IndexedRecord),
    entryAt (e.run session st).cache uri = some entry →
      (∃ earlier call later offer record, session = earlier ++ call :: later ∧
        offer ∈ e.offers call.1 call.2 (e.run earlier st) ∧ offer.uri = uri ∧
        Record.ofJson offer.value = .ok record ∧
        HasContent uri (e.log later (e.run (earlier ++ [call]) st)) offer.cid record entry) ∧
      (∃ u, RecordUri.parse entry.uri = .ok u) ∧
      ∃ j record, Json.ofText? entry.body = .ok j ∧ Record.ofJson j = .ok record ∧
        record.toText = entry.body

/-- Every write of a log is justified. -/
theorem exists_justified_of_mem_log {session : List (Instant × Request)} {st : State ρ ω}
    {w : Write} (h : w ∈ e.log session st) : ∃ offers q, Justified offers q w := by
  obtain ⟨before, after, hlog⟩ := List.append_of_mem h
  obtain ⟨earlier, call, later, pre, post, -, hwrites, -⟩ := exists_call_of_log_eq hlog
  have hmem : w ∈ e.writes call.1 call.2 (e.run earlier st) := by
    rw [hwrites]
    exact List.mem_append_cons_self
  exact ⟨_, _, justified_of_mem_writes hmem⟩

/-- An entry stands under the URI of a record, since it was indexed once. -/
theorem exists_parse_of_applyWrites {session : List (Instant × Request)} {st : State ρ ω}
    {uri : String} {entry : IndexedRecord}
    (h : applyWrites (fun _ => none) (e.log session st) uri = some entry) :
    ∃ u, RecordUri.parse uri = .ok u := by
  obtain ⟨indexed, -, hindexed, -⟩ := traced_applyWrites h
  obtain ⟨w, hw, hchange⟩ := List.mem_filterMap.1 (List.mem_of_getLast? hindexed)
  obtain ⟨hlog, huri⟩ := List.mem_filter.1 hw
  obtain ⟨offers, q, hjustified⟩ := exists_justified_of_mem_log hlog
  rw [← of_decide_eq_true huri]
  exact hjustified.exists_parse hchange

theorem contentsFollow_of_lawful {e : Engine ρ ω} {entryAt : ρ → String → Option IndexedRecord}
    (hc : e.cache.Lawful entryAt) (hr : e.repository.Discreet) {st : State ρ ω}
    (hempty : entryAt st.cache = fun _ => none) : e.ContentsFollow entryAt st := by
  intro session uri entry h
  rw [entryAt_run hc hr, hempty] at h
  have hparse := exists_parse_of_applyWrites h
  obtain ⟨before, w, after, cid, record, hlog, rfl, hcontent, hhas⟩ :=
    exists_content_of_applyWrites h
  obtain ⟨earlier, call, later, pre, post, hsession, hwrites, rfl⟩ := exists_call_of_log_eq hlog
  have hjustified : ∀ w' ∈ pre ++ w :: post,
      Justified (e.offers call.1 call.2 (e.run earlier st)) call.2 w' := by
    intro w' hw'
    rw [← hwrites] at hw'
    exact justified_of_mem_writes hw'
  have hw := hjustified w List.mem_append_cons_self
  obtain ⟨offer, hoffer, huri, rfl, hvalue⟩ := hw.exists_offer hcontent
  -- The request that wrote the content has not tracked the entry after that.
  have htracked : TrackedIn w.uri (post ++ e.log later (e.run (earlier ++ [call]) st)) →
      TrackedIn w.uri (e.log later (e.run (earlier ++ [call]) st)) := by
    rintro ⟨w', hw', huri', htracking⟩
    rcases List.mem_append.1 hw' with hpost | hlater
    · have hw'' := hjustified w' (List.mem_append_right _ (List.mem_cons_of_mem _ hpost))
      rw [hw''.isTracking_eq, ← hw.isTracking_eq, Change.isTracking_of_content? hcontent]
        at htracking
      cases htracking
    · exact ⟨w', hlater, huri', htracking⟩
  have htext : Json.ofText? entry.body = .ok record.toJson := by
    rw [hhas.body_eq]
    exact record.ofText?_toText
  exact ⟨⟨earlier, call, later, offer, record, hsession, hoffer, huri, hvalue, hhas.uri_eq,
    hhas.body_eq, fun hnot => hhas.contentHash_eq (mt htracked hnot)⟩, hhas.uri_eq ▸ hparse,
    record.toJson, record, htext, Record.ofJson_toJson (Record.check_of_ofJson hvalue),
    hhas.body_eq.symm⟩

/-- **The contents of the entries** follow the offers in every run from an empty cache, in memory or
relational, whatever calls of it have been made to fail and whatever the repository answers, as long
as fetches leave the cache alone. -/
theorem contentsFollow {ω : Type} (calls : List Cache.Call) (limit : Nat) (world : ω) :
    (∀ repository : Repository ω Cache.Memory, repository.Discreet →
      ContentsFollow ⟨Cache.Memory.store.failing calls, repository, limit⟩ Cache.Memory.entryAt
        ⟨.empty, world⟩) ∧
    (∀ repository : Repository ω Cache.Relational, repository.Discreet →
      ContentsFollow ⟨Cache.Relational.store.failing calls, repository, limit⟩
        Cache.Relational.entryAt ⟨.empty, world⟩) :=
  ⟨fun _ hr => contentsFollow_of_lawful (Cache.Memory.lawful.failing calls) hr rfl,
    fun _ hr => contentsFollow_of_lawful (Cache.Relational.lawful.failing calls) hr rfl⟩

/-- An entry that was tracked and then refreshed has its content from the repository. -/
theorem contentsFollow_tracked_refreshed :
    let e : Engine Cache.Relational (List (Except FetchError (Option Fetched))) :=
      ⟨Cache.Relational.store.failing [.markSwept], .inTurn, defaultScanLimit⟩
    let answers := [.ok (some ⟨"at://a/c/r", "c2", reviewValue, "p"⟩)]
    let session : List (Instant × Request) :=
      [(0, .index "at://a/c/r" "c1" "p" eprintValue), (1, .track "at://a/c/r" "c3" "q"),
        (2, .refresh "at://a/c/r")]
    e.repository.Discreet ∧
    ∃ entry, (e.run session ⟨.empty, answers⟩).cache.entryAt "at://a/c/r" = some entry ∧
      entry.contentHash = "c2" ∧ (∃ u, RecordUri.parse entry.uri = .ok u) ∧
      ∃ j record, Json.ofText? entry.body = .ok j ∧ Record.ofJson j = .ok record ∧
        record.toText = entry.body := by
  intro e answers session
  have hr : e.repository.Discreet := fun _ _ _ _ => rfl
  have hentry : (e.run session ⟨.empty, answers⟩).cache.entryAt "at://a/c/r" = some
      ⟨"at://a/c/r", "c2", "q", "pub.chive.eprint.submission",
        (Record.review ⟨"at://a/b/c", "R", "2024-01-01T00:00:00Z"⟩).toText, 2⟩ := by
    unfold e answers session
    decide +kernel
  obtain ⟨-, hparse, hbody⟩ := (contentsFollow _ _ answers).2 _ hr session _ _ hentry
  exact ⟨hr, _, hentry, rfl, hparse, hbody⟩

end Engine

end PaperIndex.Sync
