import PaperIndex.Proofs.Cache.Scan
import PaperIndex.Proofs.Sync.Agreement
import PaperIndex.Proofs.Sync.Types

/-! # The account of a sweep

Whatever the responder answers and does to the cache meanwhile, and whichever calls of the cache
fail besides the scan, a sweep refreshes each of its candidates once and counts the outcome once.
It makes at most one fetch for each candidate, in their order and with the hints of their endpoints
(`sweep_accounted`). The reason is that deletions and rewrites let no entry appear and move none to
another server (`Settled`). -/

namespace PaperIndex.Sync

open Time (Instant)
open Script (Noted)
open PaperIndex.Cache (FirstBefore)

/-! ### Entries that stay with their servers -/

/-- No entry has appeared, and none has moved to another server. -/
def Settled (entries entries' : String → Option IndexedRecord) : Prop :=
  ∀ uri e', entries' uri = some e' → ∃ e, entries uri = some e ∧ e.endpoint = e'.endpoint

theorem Settled.refl (entries : String → Option IndexedRecord) : Settled entries entries :=
  fun _ e he => ⟨e, he, rfl⟩

theorem Settled.trans {a b c : String → Option IndexedRecord} (hab : Settled a b)
    (hbc : Settled b c) : Settled a c := by
  intro uri e'' he''
  obtain ⟨e', he', hsame'⟩ := hbc uri e'' he''
  obtain ⟨e, he, hsame⟩ := hab uri e' he'
  exact ⟨e, he, hsame.trans hsame'⟩

variable {ρ ω : Type} {entryAt : ρ → String → Option IndexedRecord}

/-- A call that edits an entry without its endpoint, or deletes it. -/
theorem Settled.of_writes {α : Type} {st : ρ} {r : Except StoreError α × ρ} {a : α} {uri : String}
    {slot : Option IndexedRecord} (h : Cache.Writes entryAt st r a uri slot)
    (hslot : ∀ e', slot = some e' → ∃ e, entryAt st uri = some e ∧ e.endpoint = e'.endpoint) :
    Settled (entryAt st) (entryAt r.2) := by
  rcases h with ⟨-, hentry⟩ | ⟨-, hentry⟩
  · rw [hentry]
    intro u e' he'
    by_cases hu : u = uri
    · subst hu
      rw [Function.update_self] at he'
      exact hslot e' he'
    · rw [Function.update_of_ne hu] at he'
      exact ⟨e', he', rfl⟩
  · rw [hentry]
    exact .refl _

theorem Settled.of_edits {α : Type} {st : ρ} {r : Except StoreError α × ρ} {a : α} {uri : String}
    {edit : IndexedRecord → IndexedRecord}
    (h : Cache.Writes entryAt st r a uri ((entryAt st uri).map edit))
    (hedit : ∀ e, (edit e).endpoint = e.endpoint) : Settled (entryAt st) (entryAt r.2) := by
  refine .of_writes h fun e' he' => ?_
  obtain ⟨e, he, rfl⟩ := Option.map_eq_some_iff.1 he'
  exact ⟨e, he, (hedit e).symm⟩

theorem Settled.foldl_edits {cache : Cache.Store ρ} (hc : cache.Lawful entryAt) (now : Instant)
    (edits : List Edit) (st : ρ) :
    Settled (entryAt st) (entryAt (edits.foldl (Edit.apply cache now) st)) := by
  induction edits generalizing st with
  | nil => exact .refl _
  | cons edit edits ih =>
    refine .trans ?_ (ih _)
    cases edit with
    | delete uri => exact .of_writes (hc.delete uri st) nofun
    | rewrite uri cid body =>
      exact .of_edits (hc.updateContent uri cid body now st) fun _ => rfl

/-! ### The fetches of a sweep -/

/-- The fetch of the record of an entry. -/
def callOf (e : IndexedRecord) : Noted := ⟨e.uri, hintOf e.endpoint⟩

/-- **What lies between two states**: some of the calls, in their order, while the entries stay with
their servers. -/
structure Advances (entryAt : ρ → String → Option IndexedRecord) (calls : List Noted)
    (st st' : State ρ (Watched ω)) : Prop where
  fetches : ∃ made, st'.world.fetches = st.world.fetches ++ made ∧ made.Sublist calls
  settled : Settled (entryAt st.cache) (entryAt st'.cache)

namespace Advances

variable {st st' st'' : State ρ (Watched ω)} {calls calls' : List Noted}

theorem refl (st : State ρ (Watched ω)) (calls : List Noted) : Advances entryAt calls st st :=
  ⟨⟨[], (List.append_nil _).symm, List.nil_sublist calls⟩, .refl _⟩

theorem trans (h : Advances entryAt calls st st') (h' : Advances entryAt calls' st' st'') :
    Advances entryAt (calls ++ calls') st st'' := by
  obtain ⟨made, hfetches, hmade⟩ := h.fetches
  obtain ⟨made', hfetches', hmade'⟩ := h'.fetches
  refine ⟨⟨made ++ made', ?_, hmade.append hmade'⟩, h.settled.trans h'.settled⟩
  rw [hfetches', hfetches, List.append_assoc]

/-- A change of the cache that follows. -/
theorem stored (h : Advances entryAt calls st st') {cache : ρ}
    (hcache : Settled (entryAt st'.cache) (entryAt cache)) :
    Advances entryAt calls st { st' with cache } :=
  ⟨h.fetches, h.settled.trans hcache⟩

end Advances

section Lawful
variable {cache : Cache.Store ρ} (hc : cache.Lawful entryAt) (s : Setup ω) (now : Instant)
include hc

/-- The fetch for an entry makes its call. -/
theorem fetched_advances (uri : String) (entry : IndexedRecord) (st : State ρ (Watched ω)) :
    Advances entryAt [⟨uri, hintOf entry.endpoint⟩] st
      ((s.engine cache now).fetched uri entry st).2 :=
  ⟨⟨_, rfl, List.Sublist.refl _⟩, .foldl_edits hc now _ _⟩

/-- **A refresh** makes at most the call for the entry of its URI. -/
theorem refresh_advances {uri endpoint : String} {st : State ρ (Watched ω)}
    (hentry : ∀ e, entryAt st.cache uri = some e → e.endpoint = endpoint) :
    Advances entryAt [⟨uri, hintOf endpoint⟩] st ((s.engine cache now).refresh now uri st).2 := by
  have hlawful : (s.engine cache now).cache.Lawful entryAt := hc.failing s.failing
  have hfetched : ∀ {entry answer st'},
      (s.engine cache now).cache.get uri st.cache = .ok (some entry) →
      (s.engine cache now).fetched uri entry st = (answer, st') →
      Advances entryAt [⟨uri, hintOf endpoint⟩] st st' := by
    intro entry answer st' hget hfetch
    have hadvances := fetched_advances hc s now uri entry st
    rwa [hfetch, hentry entry (hlawful.get hget).symm] at hadvances
  have hcases := (s.engine cache now).refresh_cases now uri st
  generalize (s.engine cache now).refresh now uri st = x at hcases
  cases hcases with
  | unread hget => exact .refl st _
  | unknown hget => exact .refl st _
  | unreachable hget hfetch => exact hfetched hget hfetch
  | missing hget hfetch => exact hfetched hget hfetch
  | confirmed hget hfetch hcid => exact hfetched hget hfetch
  | unacceptable hget hfetch hcid hvalue => exact hfetched hget hfetch
  | @written entry st' f record r left hget hfetch hcid hvalue hupdate =>
    have hwrites := hlawful.updateContent uri f.cid record.toText now st'.cache
    rw [hupdate] at hwrites
    exact (hfetched hget hfetch).stored (.of_edits hwrites fun _ => rfl)

theorem sweepOne_advances {c : IndexedRecord} {st : State ρ (Watched ω)}
    (hentry : ∀ e, entryAt st.cache c.uri = some e → e.endpoint = c.endpoint) :
    Advances entryAt [callOf c] st ((s.engine cache now).sweepOne now c st).2 := by
  have hrefresh := refresh_advances hc s now hentry
  unfold Engine.sweepOne
  rcases hx : (s.engine cache now).refresh now c.uri st with
    ⟨err | ⟨_ | _, previous, current⟩, st'⟩ <;> rw [hx] at hrefresh
  · exact hrefresh
  · have hlawful : (s.engine cache now).cache.Lawful entryAt := hc.failing s.failing
    refine hrefresh.stored (.of_edits (hlawful.touchVerified c.uri current now st'.cache) ?_)
    intro e
    split <;> rfl
  · exact hrefresh

/-- **The refreshes of a sweep** make at most the calls for its candidates, one each. -/
theorem sweepAll_advances {candidates : List IndexedRecord} {st : State ρ (Watched ω)}
    (hentries : ∀ c ∈ candidates, ∀ e, entryAt st.cache c.uri = some e → e.endpoint = c.endpoint) :
    Advances entryAt (candidates.map callOf) st
      ((s.engine cache now).sweepAll (fun _ => now) candidates st).2 := by
  induction candidates generalizing st with
  | nil => exact .refl st _
  | cons c candidates ih =>
    obtain ⟨hc₀, hcs⟩ := List.forall_mem_cons.1 hentries
    have hone := sweepOne_advances hc s now hc₀
    refine hone.trans (ih fun c' hc' e he => ?_)
    obtain ⟨e₀, he₀, hsame⟩ := hone.settled c'.uri e he
    rw [← hsame, hcs c' hc' e₀ he₀]

end Lawful

/-! ### The counts of a sweep -/

theorem Engine.length_sweepAll (e : Engine ρ ω) (now : Instant) (candidates : List IndexedRecord)
    (st : State ρ ω) : (e.sweepAll (fun _ => now) candidates st).1.length = candidates.length := by
  induction candidates generalizing st with
  | nil => rfl
  | cons c candidates ih => exact congrArg (· + 1) (ih _)

/-- **Every outcome is counted once.** -/
theorem Report.examined_of (outcomes : List Swept) :
    (Report.of outcomes).examined =
      (Report.of outcomes).refreshed + (Report.of outcomes).notFound +
        (Report.of outcomes).failed := by
  change outcomes.length = outcomes.count .changed + outcomes.count .confirmed +
    outcomes.count .notFound + outcomes.count .failed
  induction outcomes with
  | nil => rfl
  | cons outcome outcomes ih =>
    rw [List.length_cons, ih]
    cases outcome <;> simp <;> omega

theorem Report.changed_le (outcomes : List Swept) :
    (Report.of outcomes).changed ≤ (Report.of outcomes).refreshed := Nat.le_add_right _ _

/-! ### Sweeps -/

/-- **The account of a sweep** of candidates, from its result and the states of the responder before
and after it. -/
structure Accounted (candidates : List IndexedRecord) (result : Except ScanStop Report)
    (before after : Watched ω) : Prop where
  report : ∃ report, result = .ok report ∧ report.examined = candidates.length ∧
    report.examined = report.refreshed + report.notFound + report.failed ∧
    report.changed ≤ report.refreshed
  fetches : ∃ made, after.fetches = before.fetches ++ made ∧
    made.Sublist (candidates.map callOf)

/-- A sweep whose scan succeeds. -/
theorem Accounted.of_scan {cache : Cache.Store ρ} (hc : cache.Lawful entryAt) (s : Setup ω)
    (hscan : Cache.Call.indexedBefore ∉ s.failing) {now : Instant} {maxAge : Int}
    (hage : 0 ≤ maxAge) (hcutoff : Time.hasDate (now - maxAge) = true) {limit : Nat}
    {st : State ρ (Watched ω)} {candidates : List IndexedRecord}
    (hfound : cache.indexedBefore (now - maxAge) limit st.cache = .ok candidates)
    (hfirst : FirstBefore (entryAt st.cache) (now - maxAge) limit candidates) :
    let r := (s.engine cache now).sweep now maxAge limit st
    Accounted candidates r.1 st.world r.2.world := by
  have hstale : (s.engine cache now).stale now maxAge limit st = .ok candidates :=
    Engine.stale_of_scan hage hcutoff ((if_neg hscan).trans hfound)
  rw [Engine.sweep_of_stale hstale]
  refine ⟨⟨_, rfl, ?_, Report.examined_of _, Report.changed_le _⟩, ?_⟩
  · exact (s.engine cache now).length_sweepAll now candidates st
  · refine (sweepAll_advances hc s now fun c hcand e he => ?_).fetches
    rw [hfirst.entry c hcand] at he
    rw [Option.some.inj he]

/-- **The account of every sweep**: as long as the scan itself works, a sweep returns a report on
the first stale entries, counts each of them once, and makes at most the fetches for them, one each,
in their order. This holds over every lawful cache whose scan finds these entries, and the scans of
both caches do. -/
theorem sweep_accounted (s : Setup ω) (hscan : Cache.Call.indexedBefore ∉ s.failing)
    {now : Instant} {maxAge : Int} (hage : 0 ≤ maxAge)
    (hcutoff : Time.hasDate (now - maxAge) = true) (limit : Nat) (world : Watched ω) :
    (∀ {σ : Type} {cache : Cache.Store σ} {entryAt : σ → String → Option IndexedRecord},
      cache.Lawful entryAt → ∀ st candidates,
      cache.indexedBefore (now - maxAge) limit st = .ok candidates →
      FirstBefore (entryAt st) (now - maxAge) limit candidates →
      let r := (s.engine cache now).sweep now maxAge limit ⟨st, world⟩
      Accounted candidates r.1 world r.2.world) ∧
    (∀ m : Cache.Memory, m.Keyed →
      let r := (s.engine Cache.Memory.store now).sweep now maxAge limit ⟨m, world⟩
      ∃ candidates, FirstBefore m.entryAt (now - maxAge) limit candidates ∧
        Accounted candidates r.1 world r.2.world) ∧
    (∀ m : Cache.Relational, m.Dated →
      let r := (s.engine Cache.Relational.store now).sweep now maxAge limit ⟨m, world⟩
      ∃ candidates, FirstBefore m.entryAt (now - maxAge) limit candidates ∧
        Accounted candidates r.1 world r.2.world) := by
  refine ⟨fun hc st candidates hfound hfirst => ?_, fun m hkeyed => ?_, fun m hdated => ?_⟩
  · exact .of_scan hc s hscan hage hcutoff hfound hfirst
  · obtain ⟨candidates, hfound, hfirst⟩ :=
      Cache.Memory.indexedBefore_spec hkeyed (now - maxAge) limit
    exact ⟨candidates, hfirst,
      .of_scan Cache.Memory.lawful s hscan hage hcutoff hfound hfirst⟩
  · obtain ⟨candidates, hfound, hfirst⟩ :=
      Cache.Relational.indexedBefore_spec hdated (now - maxAge) limit
    exact ⟨candidates, hfirst,
      .of_scan Cache.Relational.lawful s hscan hage hcutoff hfound hfirst⟩

/-- A sweep of four out of five stale records in front of a fresh one: the first is confirmed but not
stamped, the second does not exist any more, the third cannot be fetched, and the fourth is deleted
while its new content is fetched. -/
theorem sweep_accounted_interfered :
    let at_ (uri endpoint : String) (t : Instant) : IndexedRecord :=
      ⟨uri, "c1", endpoint, "pub.chive.eprint.submission", "", t⟩
    let entries := [at_ "a" "p" 1, at_ "b" "" 1, at_ "c" "q" 2, at_ "d" "p" 3, at_ "e" "p" 4,
      at_ "f" "p" 9]
    let m := entries.foldl (fun m e => (Cache.Memory.store.upsert e m).2) .empty
    let r := entries.foldl (fun r e => (Cache.Relational.store.upsert e r).2) .empty
    let script : Script.State := ⟨.ofRows [
      ("a", [⟨.ok (some ⟨"a", "c1", eprintValue, "p"⟩), []⟩]),
      ("b", [⟨.ok none, []⟩]),
      ("c", [⟨.error (.stated "down"), [.edit "c2"]⟩]),
      ("d", [⟨.ok (some ⟨"d", "c2", eprintValue, "p"⟩), [.delete]⟩])], []⟩
    let s : Setup Script.State := ⟨[.touchVerified, .markSwept], .script, defaultScanLimit⟩
    Cache.Call.indexedBefore ∉ s.failing ∧ (0 : Int) ≤ 5 ∧ Time.hasDate (10 - 5) = true ∧
      m.Keyed ∧ r.Dated ∧
      ((s.engine Cache.Memory.store 10).sweep 10 5 4 ⟨m, ⟨[], script⟩⟩).1 =
        .ok ⟨4, 1, 0, 2, 1⟩ ∧
      (let r' := (s.engine Cache.Memory.store 10).sweep 10 5 4 ⟨m, ⟨[], script⟩⟩
        ∃ candidates, FirstBefore m.entryAt (10 - 5) 4 candidates ∧
          Accounted candidates r'.1 ⟨[], script⟩ r'.2.world) ∧
      let r' := (s.engine Cache.Relational.store 10).sweep 10 5 4 ⟨r, ⟨[], script⟩⟩
      ∃ candidates, FirstBefore r.entryAt (10 - 5) 4 candidates ∧
        Accounted candidates r'.1 ⟨[], script⟩ r'.2.world := by
  intro at_ entries m r script s
  have hscan : Cache.Call.indexedBefore ∉ s.failing := by
    unfold s
    decide
  have hcutoff : Time.hasDate (10 - 5) = true := by decide
  have hkeyed : m.Keyed := by
    unfold Cache.Memory.Keyed m entries at_
    decide +kernel
  have hdated : r.Dated := by
    unfold Cache.Relational.Dated r entries at_
    decide +kernel
  have hreport : ((s.engine Cache.Memory.store 10).sweep 10 5 4 ⟨m, ⟨[], script⟩⟩).1 =
      .ok ⟨4, 1, 0, 2, 1⟩ := by
    have hfound : Cache.Memory.store.indexedBefore (10 - 5) 4 m = .ok (entries.take 4) := by
      refine @Cache.Memory.indexedBefore_of_perm m (10 - 5) (entries.take 5) ?_ ?_ ?_ 4 <;>
        (unfold entries at_; decide +kernel)
    rw [Engine.sweep_of_stale (Engine.stale_of_scan (by decide) hcutoff hfound)]
    unfold s m entries at_ script
    decide +kernel
  obtain ⟨-, hmemory, hrelational⟩ := sweep_accounted s hscan (by decide) hcutoff 4 ⟨[], script⟩
  exact ⟨hscan, by decide, hcutoff, hkeyed, hdated, hreport, hmemory m hkeyed,
    hrelational r hdated⟩

/-- The states that sessions lead to have records under their URIs and instants with dates. -/
theorem Setup.keyed_run (s : Setup ω) (world : ω) (session : List (Int × Request)) :
    (s.run Cache.Memory.store session ⟨.empty, ⟨[], world⟩⟩).cache.Keyed ∧
      (s.run Cache.Relational.store session ⟨.empty, ⟨[], world⟩⟩).cache.Dated := by
  have hmirrors := (s.run_mirrors 1 (session.map Timed.still) world).cache
  rw [Cache.Store.inMillis_one, Cache.Store.inMillis_one] at hmirrors
  exact ⟨hmirrors.keyed, hmirrors.dated⟩

end PaperIndex.Sync
