import PaperIndex.Proofs.Cache.Laws
import PaperIndex.Proofs.Remote.Bodies
import PaperIndex.Proofs.Sync.Session
import PaperIndex.Proofs.Text.Trimming

/-! # Outages and deletions

A fetch asks the server of the record, once this is known, and goes by its response alone. It says
that the record does not exist only where the response denies it (`Denies`), and it answers with a
record only where the response states one (`Grants`); everything else is a failure. So a refresh
never takes an outage for a deletion. -/

namespace PaperIndex.Remote

open Json
open Time (Instant)

/-! ### Responses -/

/-- **A response that denies a record**: it is a 404, or a 400 that says so. -/
def Denies (r : Http.Response) : Prop :=
  r.status = 404 ∨ r.status = 400 ∧ SaysNotFound r.body

/-- **A response that grants a record**: it is a success and states the record, whose value is kept
with its fields in the order of their keys. -/
def Grants (r : Http.Response) (f : Fetched) : Prop :=
  (200 ≤ r.status ∧ r.status < 300) ∧
    ∃ value, StatesRecord r.body f.uri f.cid value ∧ f.value = value.canonical

theorem isSuccess_iff {status : Nat} :
    Http.isSuccess status = true ↔ 200 ≤ status ∧ status < 300 := by
  simp [Http.isSuccess]

/-- **What a response is taken for.** -/
inductive Judged (endpoint : String) (r : Http.Response) :
    Except FetchError (Option Fetched) → Prop
  | denied (h : Denies r) : Judged endpoint r (.ok none)
  | granted {f} (h : Grants r f) (hendpoint : f.endpoint = endpoint) :
    Judged endpoint r (.ok (some f))
  | failed {err} (hdenies : ¬Denies r) (hgrants : ∀ f, ¬Grants r f) :
    Judged endpoint r (.error err)

theorem judge_judged (uri endpoint : String) (r : Http.Response) :
    Judged endpoint r (judge uri endpoint r) := by
  unfold judge
  split
  · next hstatus => exact .denied (.inl hstatus)
  · next hmissing =>
    split
    · next hstatus =>
      have hgrants : ∀ f, ¬Grants r f := fun f h => absurd (hstatus ▸ h.1.2) (by decide)
      simp only
      split
      · next hname => exact .denied (.inr ⟨hstatus, name_refusalOf_iff.1 hname⟩)
      · next hname =>
        refine .failed ?_ hgrants
        rintro (h | ⟨-, h⟩)
        · exact hmissing h
        · exact hname (name_refusalOf_iff.2 h)
    · next hbad =>
      have hdenies : ¬Denies r := fun h => h.elim hmissing fun h => hbad h.1
      split
      · next hsuccess =>
        split
        · next err hread =>
          refine .failed hdenies fun f h => ?_
          obtain ⟨-, value, hstates, -⟩ := h
          rw [decodeText_readStatement_iff.2 hstates] at hread
          cases hread
        · next s hread =>
          obtain ⟨uri', cid, value⟩ := s
          cases cid with
          | none =>
            refine .failed hdenies fun f h => ?_
            obtain ⟨-, value, hstates, -⟩ := h
            rw [decodeText_readStatement_iff.2 hstates] at hread
            cases hread
          | some cid =>
            exact .granted ⟨isSuccess_iff.1 hsuccess, value,
              decodeText_readStatement_iff.1 hread, rfl⟩ rfl
      · next hsuccess =>
        exact .failed hdenies fun f h => hsuccess (isSuccess_iff.2 h.1)

theorem Denies.not_grants {r : Http.Response} (h : Denies r) (f : Fetched) : ¬Grants r f := by
  rintro ⟨⟨hlow, hhigh⟩, -⟩
  rcases h with hstatus | ⟨hstatus, -⟩ <;> omega

/-- A response grants one record only. -/
theorem Grants.unique {r : Http.Response} {f f' : Fetched} (h : Grants r f) (h' : Grants r f')
    (hendpoint : f.endpoint = f'.endpoint) : f = f' := by
  obtain ⟨-, value, hstates, hvalue⟩ := h
  obtain ⟨-, value', hstates', hvalue'⟩ := h'
  have hsame := (decodeText_readStatement_iff.2 hstates).symm.trans
    (decodeText_readStatement_iff.2 hstates')
  cases f
  cases f'
  simp_all

section Judge
variable {uri endpoint : String} {r : Http.Response}

theorem judge_eq_none_iff : judge uri endpoint r = .ok none ↔ Denies r := by
  have hjudged := judge_judged uri endpoint r
  generalize judge uri endpoint r = x at hjudged ⊢
  cases hjudged with
  | denied h => exact iff_of_true rfl h
  | granted h => exact iff_of_false nofun fun hdenies => hdenies.not_grants _ h
  | failed hdenies => exact iff_of_false nofun hdenies

theorem judge_eq_some_iff {f : Fetched} :
    judge uri endpoint r = .ok (some f) ↔ Grants r f ∧ f.endpoint = endpoint := by
  have hjudged := judge_judged uri endpoint r
  generalize judge uri endpoint r = x at hjudged ⊢
  cases hjudged with
  | denied h => exact iff_of_false nofun fun hf => h.not_grants f hf.1
  | granted h hendpoint =>
    constructor
    · intro heq
      obtain rfl := Option.some.inj (Except.ok.inj heq)
      exact ⟨h, hendpoint⟩
    · rintro ⟨hf, hf'⟩
      rw [h.unique hf (hendpoint.trans hf'.symm)]
  | failed _ hgrants => exact iff_of_false nofun fun hf => hgrants f hf.1

end Judge

/-! ### Servers -/

/-- **Where the document of an authority is**, by the method of the authority. -/
inductive DocumentAt (directory did : String) : String → Prop
  | plc {rest} (h : did = "did:plc:" ++ rest) : DocumentAt directory did (directory ++ "/" ++ did)
  | web {host} (h : did = "did:web:" ++ host) : DocumentAt directory did
    ("https://" ++ String.ofList (Text.replaceAll "%3A".toList [':'] host.toList) ++
      "/.well-known/did.json")

theorem documentUrl?_eq_some_iff {directory did url : String} :
    Identity.documentUrl? directory did = some url ↔ DocumentAt directory did url := by
  unfold Identity.documentUrl?
  split
  · next hplc =>
    obtain ⟨rest, hrest⟩ := Text.hasLead_iff.1 hplc
    constructor
    · intro h
      obtain rfl := Option.some.inj h
      exact .plc hrest
    · rintro (_ | ⟨hweb⟩)
      · rfl
      · -- No authority has both methods.
        rw [hrest, ← String.toList_inj, String.toList_append, String.toList_append] at hweb
        have hplc : "did:plc:".toList = ['d', 'i', 'd', ':', 'p', 'l', 'c', ':'] := by decide
        have hother : "did:web:".toList = ['d', 'i', 'd', ':', 'w', 'e', 'b', ':'] := by decide
        simp [hplc, hother] at hweb
  · next hplc =>
    rw [Option.map_eq_some_iff]
    constructor
    · rintro ⟨host, hhost, rfl⟩
      exact .web (Text.after?_eq_some_iff.1 hhost)
    · rintro (⟨h⟩ | ⟨h⟩)
      · exact absurd (Text.hasLead_iff.2 ⟨_, h⟩) hplc
      · exact ⟨_, Text.after?_eq_some_iff.2 h, rfl⟩

namespace Client

variable {ω : Type}

/-- **Where a record is asked for**: at the hinted server, or else at the one that the document of
the authority lists, in either case without slashes at its end. The world is left as by the request
for the document. -/
inductive Locates (c : Client) (t : Http.Transport ω) (did : String) (world : ω) :
    Option String → String → ω → Prop
  | hinted (hint : String) : Locates c t did world (some hint) (Text.trimEndSlashes hint) world
  | resolved {url r world' endpoint} (hurl : DocumentAt c.directory did url)
    (hanswer : t.send ⟨url, [], c.userAgent⟩ world = (some r, world'))
    (hsuccess : 200 ≤ r.status ∧ r.status < 300) (hlists : Identity.ListsServer r.body endpoint) :
    Locates c t did world none (Text.trimEndSlashes endpoint) world'

variable {c : Client} {t : Http.Transport ω}

theorem resolve_eq_ok_iff {did endpoint : String} {world world' : ω} :
    c.resolve t did world = (.ok endpoint, world') ↔ c.Locates t did world none endpoint world' := by
  unfold resolve Identity.resolve
  cases hurl : Identity.documentUrl? c.directory did with
  | none =>
    refine iff_of_false nofun ?_
    rintro (_ | ⟨hdocument⟩)
    cases hurl.symm.trans (documentUrl?_eq_some_iff.2 hdocument)
  | some url =>
    constructor
    · intro h
      obtain ⟨⟨answer, world''⟩, hsend⟩ : ∃ x, t.send ⟨url, [], c.userAgent⟩ world = x := ⟨_, rfl⟩
      simp only [hsend, Prod.mk.injEq] at h
      obtain ⟨hfound, rfl⟩ := h
      split at hfound
      · cases hfound
      · next r =>
        split at hfound
        · next hsuccess =>
          split at hfound
          · cases hfound
          · next services hread =>
            split at hfound
            · next server hserver =>
              obtain rfl := Except.ok.inj hfound
              obtain ⟨e, hlists, rfl⟩ := Identity.exists_server_iff.1 ⟨services, hread, hserver⟩
              exact .resolved (documentUrl?_eq_some_iff.1 hurl) hsend (isSuccess_iff.1 hsuccess)
                hlists
            · cases hfound
        · cases hfound
    · rintro (_ | ⟨hdocument, hanswer, hsuccess, hlists⟩)
      obtain rfl := Option.some.inj (hurl.symm.trans (documentUrl?_eq_some_iff.2 hdocument))
      obtain ⟨services, hread, hserver⟩ := Identity.exists_server_iff.2 ⟨_, hlists, rfl⟩
      simp only [hanswer, isSuccess_iff.2 hsuccess, if_true, hread, hserver]

/-- **The server for a record** is the one that is located. -/
theorem serverFor_eq_ok_iff {did endpoint : String} {hint : Option String} {world world' : ω} :
    c.serverFor t did hint world = (.ok endpoint, world') ↔
      c.Locates t did world hint endpoint world' := by
  cases hint with
  | none => exact resolve_eq_ok_iff
  | some hint =>
    constructor
    · intro h
      obtain ⟨hserver, rfl⟩ := Prod.mk.inj h
      obtain rfl := Except.ok.inj hserver
      exact .hinted hint
    · rintro ⟨⟩
      rfl

theorem Locates.endsWith {did endpoint : String} {hint : Option String} {world world' : ω}
    (h : c.Locates t did world hint endpoint world') :
    Text.endsWith Text.isSlash endpoint = false := by
  cases h with
  | hinted hint => exact Text.endsWith_trimEndSlashes hint
  | @resolved _ _ _ e => exact Text.endsWith_trimEndSlashes e

/-! ### Fetches -/

/-- The request for a record. -/
def requestFor (c : Client) (u : RecordUri) (endpoint : String) : Http.Request :=
  ⟨endpoint ++ "/xrpc/com.atproto.repo.getRecord",
    [("repo", u.authority), ("collection", u.collection), ("rkey", u.rkey)], c.userAgent⟩

/-- **A server has answered about a record**: the text is a URI, the server at the endpoint has been
located, and this is its response to the request for the record. -/
def Answered (c : Client) (t : Http.Transport ω) (uri : String) (hint : Option String) (world : ω)
    (endpoint : String) (r : Http.Response) : Prop :=
  ∃ u world', RecordUri.parse uri = .ok u ∧ c.Locates t u.authority world hint endpoint world' ∧
    (t.send (c.requestFor u endpoint) world').1 = some r

theorem fst_ask_eq_ok_iff (c : Client) {uri : String} {u : RecordUri} {endpoint : String}
    {world : ω} {answer : Option Fetched} :
    (c.ask t uri u endpoint world).1 = .ok answer ↔
      ∃ r, (t.send (c.requestFor u endpoint) world).1 = some r ∧
        judge uri endpoint r = .ok answer := by
  obtain ⟨⟨answer', world'⟩, hsend⟩ : ∃ x, t.send (c.requestFor u endpoint) world = x := ⟨_, rfl⟩
  rw [requestFor] at hsend ⊢
  simp only [ask, hsend]
  cases answer' <;> simp

/-- **A fetch answers as the response is judged**, and without a response it fails. -/
theorem fetch_eq_ok_iff {uri : String} {hint : Option String} {world : ω}
    {answer : Option Fetched} :
    (c.fetch t uri hint world).1 = .ok answer ↔
      ∃ endpoint r, c.Answered t uri hint world endpoint r ∧
        judge uri endpoint r = .ok answer := by
  unfold fetch Answered
  cases huri : RecordUri.parse uri with
  | error fault =>
    refine iff_of_false nofun ?_
    rintro ⟨_, _, ⟨_, _, ⟨⟩, -⟩, -⟩
  | ok u =>
    obtain ⟨⟨server, world'⟩, hserver⟩ : ∃ x, c.serverFor t u.authority hint world = x := ⟨_, rfl⟩
    simp only [hserver, Except.ok.injEq, ← serverFor_eq_ok_iff]
    cases server with
    | error err =>
      refine iff_of_false nofun ?_
      rintro ⟨_, _, ⟨_, _, rfl, hlocated, -⟩, -⟩
      rw [hserver] at hlocated
      cases hlocated
    | ok endpoint =>
      rw [c.fst_ask_eq_ok_iff]
      constructor
      · rintro ⟨r, hr, hjudge⟩
        exact ⟨endpoint, r, ⟨u, world', rfl, hserver, hr⟩, hjudge⟩
      · rintro ⟨_, r, ⟨_, _, rfl, hlocated, hr⟩, hjudge⟩
        rw [hserver] at hlocated
        cases hlocated
        exact ⟨r, hr, hjudge⟩

/-- **A fetch goes by the response** of the server that it has located. -/
structure GoesByResponse (c : Client) (t : Http.Transport ω) (uri : String) (hint : Option String)
    (world : ω) : Prop where
  missing : (c.fetch t uri hint world).1 = .ok none ↔
    ∃ endpoint r, c.Answered t uri hint world endpoint r ∧ Denies r
  found : ∀ f, (c.fetch t uri hint world).1 = .ok (some f) ↔
    ∃ r, c.Answered t uri hint world f.endpoint r ∧ Grants r f
  /-- The server of a record has no slashes at its end. -/
  endpoint : ∀ f, (c.fetch t uri hint world).1 = .ok (some f) →
    Text.endsWith Text.isSlash f.endpoint = false
  /-- Everything else is a failure. -/
  failed : (∃ err, (c.fetch t uri hint world).1 = .error err) ↔
    ∀ endpoint r, c.Answered t uri hint world endpoint r → ¬Denies r ∧ ∀ f, ¬Grants r f

theorem goesByResponse (c : Client) (t : Http.Transport ω) (uri : String) (hint : Option String)
    (world : ω) : c.GoesByResponse t uri hint world where
  missing := by simp only [fetch_eq_ok_iff, judge_eq_none_iff]
  found f := by
    simp only [fetch_eq_ok_iff, judge_eq_some_iff]
    constructor
    · rintro ⟨endpoint, r, hanswered, hgrants, rfl⟩
      exact ⟨r, hanswered, hgrants⟩
    · rintro ⟨r, hanswered, hgrants⟩
      exact ⟨f.endpoint, r, hanswered, hgrants, rfl⟩
  endpoint f h := by
    obtain ⟨endpoint, r, ⟨u, world', -, hlocates, -⟩, hjudge⟩ := fetch_eq_ok_iff.1 h
    rw [(judge_eq_some_iff.1 hjudge).2]
    exact hlocates.endsWith
  failed := by
    constructor
    · rintro ⟨err, herr⟩ endpoint r hanswered
      constructor
      · intro hdenies
        have hnone := fetch_eq_ok_iff.2 ⟨endpoint, r, hanswered, judge_eq_none_iff.2 hdenies⟩
        cases herr.symm.trans hnone
      · intro f hgrants
        have hsome := fetch_eq_ok_iff.2 ⟨endpoint, r, hanswered,
          judge_eq_some_iff.2 ⟨(show Grants r { f with endpoint } from hgrants), rfl⟩⟩
        cases herr.symm.trans hsome
    · intro hneither
      cases hfetch : (c.fetch t uri hint world).1 with
      | error err => exact ⟨err, rfl⟩
      | ok answer =>
        obtain ⟨endpoint, r, hanswered, hjudge⟩ := fetch_eq_ok_iff.1 hfetch
        obtain ⟨hdenies, hgrants⟩ := hneither endpoint r hanswered
        cases answer with
        | none => exact absurd (judge_eq_none_iff.1 hjudge) hdenies
        | some f => exact absurd (judge_eq_some_iff.1 hjudge).1 (hgrants f)

end Client

/-! ### Refreshes -/

section Refresh
variable {σ ω : Type} {cache : Cache.Store σ} {entryAt : σ → String → Option IndexedRecord}

/-- **A refresh of an entry goes by the response** too: the record is reported as missing only if
the response denies it, and a failure of the fetch is always reported as transient. -/
structure RefreshGoesByResponse (e : Sync.Engine σ ω) (c : Client) (t : Http.Transport ω)
    (now : Instant) (uri : String) (entry : IndexedRecord) (st : Sync.State σ ω) : Prop where
  missing : ∀ uri', (e.refresh now uri st).1 = .error (.notFound uri') ↔
    uri' = uri ∧ ∃ endpoint r,
      c.Answered t uri (Sync.hintOf entry.endpoint) st.world endpoint r ∧ Denies r
  failed : ∀ err, (c.fetch t uri (Sync.hintOf entry.endpoint) st.world).1 = .error err →
    (e.refresh now uri st).1 = .error (.transient (.fetch err))

/-- The update of an entry that is there does not miss it. -/
theorem updateContent_ne_false (hc : cache.Lawful entryAt) {uri : String} {entry : IndexedRecord}
    {st : σ} (hentry : entryAt st uri = some entry) (cid body : String) (now : Instant) :
    (cache.updateContent uri cid body now st).1 ≠ .ok false := by
  intro hfalse
  rcases hc.updateContent uri cid body now st with ⟨hfound, -⟩ | ⟨⟨err, herr⟩, -⟩
  · rw [hfalse, hentry] at hfound
    cases hfound
  · cases hfalse.symm.trans herr

theorem refreshGoesByResponse (hc : cache.Lawful entryAt) (c : Client) (t : Http.Transport ω)
    (limit : Nat) (now : Instant) {uri : String} {entry : IndexedRecord} {st : Sync.State σ ω}
    (hget : cache.get uri st.cache = .ok (some entry)) :
    RefreshGoesByResponse ⟨cache, c.repository t, limit⟩ c t now uri entry st := by
  have hmissing := (c.goesByResponse t uri (Sync.hintOf entry.endpoint) st.world).missing
  have hcases := Sync.Engine.refresh_cases ⟨cache, c.repository t, limit⟩ now uri st
  -- The fetch of a refresh is that of the client, and leaves the cache alone.
  have hanswer : ∀ {entry' answer st'}, cache.get uri st.cache = .ok (some entry') →
      Sync.Engine.fetched ⟨cache, c.repository t, limit⟩ uri entry' st = (answer, st') →
      (c.fetch t uri (Sync.hintOf entry.endpoint) st.world).1 = answer ∧
        st'.cache = st.cache := by
    intro entry' answer st' hget' hfetch
    obtain rfl := Option.some.inj (Except.ok.inj (hget.symm.trans hget'))
    obtain ⟨rfl, rfl⟩ := Prod.mk.inj hfetch
    exact ⟨rfl, rfl⟩
  constructor
  · intro uri'
    rw [← hmissing]
    generalize Sync.Engine.refresh _ now uri st = x at hcases ⊢
    cases hcases with
    | unread h => cases h.symm.trans hget
    | unknown h => cases h.symm.trans hget
    | unreachable h hfetch =>
      rw [(hanswer h hfetch).1]
      exact iff_of_false nofun nofun
    | missing h hfetch =>
      rw [(hanswer h hfetch).1]
      simp [eq_comm]
    | confirmed h hfetch hcid =>
      rw [(hanswer h hfetch).1]
      exact iff_of_false nofun nofun
    | unacceptable h hfetch hcid hvalue =>
      rw [(hanswer h hfetch).1]
      exact iff_of_false nofun nofun
    | @written _ st' f record r _ h hfetch hcid hvalue hupdate =>
      obtain ⟨hfetch, hcache⟩ := hanswer h hfetch
      have hne := updateContent_ne_false hc (hc.get hget).symm f.cid record.toText now
      rw [← hcache, hupdate] at hne
      rw [hfetch]
      refine iff_of_false ?_ nofun
      rcases r with err | _ | _
      · nofun
      · exact absurd rfl hne
      · nofun
  · intro err herr
    generalize Sync.Engine.refresh _ now uri st = x at hcases ⊢
    cases hcases with
    | unread h => cases h.symm.trans hget
    | unknown h => cases h.symm.trans hget
    | unreachable h hfetch =>
      obtain rfl := Except.error.inj (herr.symm.trans (hanswer h hfetch).1)
      rfl
    | missing h hfetch => cases herr.symm.trans (hanswer h hfetch).1
    | confirmed h hfetch hcid => cases herr.symm.trans (hanswer h hfetch).1
    | unacceptable h hfetch hcid hvalue => cases herr.symm.trans (hanswer h hfetch).1
    | written h hfetch hcid hvalue hupdate => cases herr.symm.trans (hanswer h hfetch).1

end Refresh

/-- **Fetches go by the response**, for every client, transport, text and hint: one says that a
record does not exist just if the server that has been located denies it, it answers with a record
just if that server grants it, and it fails otherwise. Over every lawful cache, so over both caches
and whatever calls of them fail, a refresh of an entry reports it as missing just in the first case,
and a failure of the fetch as transient. -/
theorem fetches_go_by_response {ω : Type} :
    (∀ (c : Client) (t : Http.Transport ω) (uri : String) (hint : Option String) (world : ω),
      c.GoesByResponse t uri hint world) ∧
    (∀ {σ : Type} {cache : Cache.Store σ} {entryAt : σ → String → Option IndexedRecord},
      cache.Lawful entryAt → ∀ (c : Client) (t : Http.Transport ω) (limit : Nat) (now : Instant)
      (uri : String) (entry : IndexedRecord) (st : Sync.State σ ω),
      cache.get uri st.cache = .ok (some entry) →
      RefreshGoesByResponse ⟨cache, c.repository t, limit⟩ c t now uri entry st) ∧
    (∀ calls, (Cache.Memory.store.failing calls).Lawful Cache.Memory.entryAt) ∧
    (∀ calls, (Cache.Relational.store.failing calls).Lawful Cache.Relational.entryAt) :=
  ⟨fun c t uri hint world => c.goesByResponse t uri hint world,
    fun hc c t limit now _ _ _ hget => refreshGoesByResponse hc c t limit now hget,
    Cache.Memory.lawful.failing, Cache.Relational.lawful.failing⟩

/-- A server that grants one record and denies another one, while a third cannot be had. It is found
through the document of the authority, or else by the hint of an entry. -/
theorem fetches_go_by_response_each :
    let uri (rkey : String) := "at://did:plc:a/c/" ++ rkey
    let document := Json.object [("service", .array [.object
      [("id", .string "#atproto_pds"), ("serviceEndpoint", .string "https://p//")]])]
    let record := Json.object [("cid", .string "c2"), ("uri", .string (uri "r")), ("value", .null)]
    let refusal := Json.object [("error", .string "RecordNotFound")]
    let t : Http.Transport Unit := ⟨fun request _ => (some
      (if request.url = "https://plc/did:plc:a" then ⟨200, document.compact⟩
      else if request.query.lookup "rkey" = some "r" then ⟨200, record.compact⟩
      else if request.query.lookup "rkey" = some "gone" then ⟨400, refusal.compact⟩
      else ⟨503, ""⟩), ())⟩
    let c := Client.of "https://plc/" "index"
    let entry (rkey : String) : IndexedRecord :=
      ⟨uri rkey, "c1", "https://p/", "pub.chive.eprint.submission", "", 0⟩
    let st : Sync.State Cache.Memory Unit :=
      ⟨(Cache.Memory.store.upsert (entry "down")
        (Cache.Memory.store.upsert (entry "gone") .empty).2).2, ()⟩
    let e : Sync.Engine Cache.Memory Unit := ⟨Cache.Memory.store, c.repository t, 500⟩
    (∃ f r, (c.fetch t (uri "r") none ()).1 = .ok (some f) ∧ f.cid = "c2" ∧
      f.endpoint = "https://p" ∧ c.Answered t (uri "r") none () f.endpoint r ∧ Grants r f) ∧
    Cache.Memory.store.get (uri "gone") st.cache = .ok (some (entry "gone")) ∧
    Cache.Memory.store.get (uri "down") st.cache = .ok (some (entry "down")) ∧
    (e.refresh 5 (uri "gone") st).1 = .error (.notFound (uri "gone")) ∧
    (∃ endpoint r, c.Answered t (uri "gone") (some "https://p/") () endpoint r ∧ Denies r) ∧
    ∃ err, (c.fetch t (uri "down") (some "https://p/") ()).1 = .error err ∧
      (e.refresh 5 (uri "down") st).1 = .error (.transient (.fetch err)) := by
  intro uri document record refusal t c entry st e
  obtain ⟨hfetch, hrefresh, -⟩ := @fetches_go_by_response Unit
  have hfound : (c.fetch t (uri "r") none ()).1.toOption.map (·.map fun f => (f.cid, f.endpoint)) =
      some (some ("c2", "https://p")) := by
    unfold c t document record refusal uri
    decide +kernel
  have hgone : Cache.Memory.store.get (uri "gone") st.cache = .ok (some (entry "gone")) := by
    unfold st entry uri
    decide +kernel
  have hdown : Cache.Memory.store.get (uri "down") st.cache = .ok (some (entry "down")) := by
    unfold st entry uri
    decide +kernel
  have hmissing : (e.refresh 5 (uri "gone") st).1 = .error (.notFound (uri "gone")) := by
    unfold e st c t entry document record refusal uri
    decide +kernel
  have hlost : (c.fetch t (uri "down") (some "https://p/") ()).1.toOption.isNone = true := by
    unfold c t document record refusal uri
    decide +kernel
  refine ⟨?_, hgone, hdown, hmissing, ?_, ?_⟩
  · cases hanswer : (c.fetch t (uri "r") none ()).1 with
    | error err =>
      rw [hanswer] at hfound
      cases hfound
    | ok answer =>
      rw [hanswer] at hfound
      cases answer with
      | none => cases hfound
      | some f =>
        obtain ⟨r, hanswered, hgrants⟩ := ((hfetch c t (uri "r") none ()).found f).1 hanswer
        obtain ⟨hcid, hendpoint⟩ := Prod.mk.inj (Option.some.inj (Option.some.inj hfound))
        exact ⟨f, r, rfl, hcid, hendpoint, hanswered, hgrants⟩
  · exact (((hrefresh Cache.Memory.lawful c t 500 5 _ _ st hgone).missing _).1 hmissing).2
  · cases hanswer : (c.fetch t (uri "down") (some "https://p/") ()).1 with
    | error err =>
      exact ⟨err, rfl, (hrefresh Cache.Memory.lawful c t 500 5 _ _ st hdown).failed err hanswer⟩
    | ok answer =>
      rw [hanswer] at hlost
      cases hlost

end PaperIndex.Remote
