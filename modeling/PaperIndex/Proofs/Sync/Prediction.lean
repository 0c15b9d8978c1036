import PaperIndex.Proofs.Cache.Health
import PaperIndex.Proofs.Sync.Refresh
import PaperIndex.Proofs.Sync.Writes

/-! # What a check says about a refresh

A check and a refresh read the same entry, make the same fetch and compare the same content
identifiers. `Settles` lists the ways in which both go from one state, over a healthy cache and with
a repository that leaves it alone (`settles`). From the finding of a check it can so be told how the
refresh ends (`check_predicts`). -/

namespace PaperIndex.Sync

/-! ### Findings -/

namespace Finding

theorem problem_eq_notIndexed_iff (f : Finding) :
    f.problem = some "not indexed" ↔ f = .notIndexed := by
  cases f with
  | notIndexed => simp [problem]
  | lookupFailed e => simp [problem, String.ext_iff]
  | missing indexed => simp [problem]
  | fetchFailed indexed e => simp [problem, String.ext_iff]
  | compared indexed current => simp [problem]

theorem problem_eq_missing_iff (f : Finding) :
    f.problem = some "record not found in repository" ↔ ∃ indexed, f = .missing indexed := by
  cases f with
  | notIndexed => simp [problem]
  | lookupFailed e => simp [problem, String.ext_iff]
  | missing indexed => simp [problem]
  | fetchFailed indexed e => simp [problem, String.ext_iff]
  | compared indexed current => simp [problem]

theorem isSome_isStale_iff (f : Finding) : f.isStale.isSome ↔ f.problem = none := by
  cases f <;> simp [isStale, problem]

theorem isSome_currentCid_iff (f : Finding) : f.currentCid.isSome ↔ f.problem = none := by
  cases f <;> simp [currentCid, problem]

end Finding

namespace Engine

open Time (Instant)
open Function (update)

variable {ρ ω : Type}

/-! ### Both from one state -/

/-- **How a check and a refresh go** from one state with the given entries: what the check finds,
how the refresh ends, and the entries that it leaves. -/
inductive Settles (e : Engine ρ ω) (entries : String → Option IndexedRecord) (now : Instant)
    (uri : String) (st : State ρ ω) :
    Finding → Except IndexError Refresh → (String → Option IndexedRecord) → Prop
  | absent (hentry : entries uri = none) :
    Settles e entries now uri st .notIndexed (.error (.notFound uri)) entries
  | unreachable {entry err} (hentry : entries uri = some entry)
    (hanswer : (e.fetched uri entry st).1 = .error err) :
    Settles e entries now uri st (.fetchFailed entry.contentHash err)
      (.error (.transient (.fetch err))) entries
  | missing {entry} (hentry : entries uri = some entry)
    (hanswer : (e.fetched uri entry st).1 = .ok none) :
    Settles e entries now uri st (.missing entry.contentHash) (.error (.notFound uri)) entries
  | same {entry f} (hentry : entries uri = some entry)
    (hanswer : (e.fetched uri entry st).1 = .ok (some f)) (hcid : f.cid = entry.contentHash) :
    Settles e entries now uri st (.compared entry.contentHash entry.contentHash)
      (.ok ⟨false, entry.contentHash, entry.contentHash⟩) entries
  | unacceptable {entry f fault} (hentry : entries uri = some entry)
    (hanswer : (e.fetched uri entry st).1 = .ok (some f)) (hcid : f.cid ≠ entry.contentHash)
    (hvalue : Record.ofJson f.value = .error fault) :
    Settles e entries now uri st (.compared entry.contentHash f.cid) (.error (.validation fault))
      entries
  | other {entry f record} (hentry : entries uri = some entry)
    (hanswer : (e.fetched uri entry st).1 = .ok (some f)) (hcid : f.cid ≠ entry.contentHash)
    (hvalue : Record.ofJson f.value = .ok record) :
    Settles e entries now uri st (.compared entry.contentHash f.cid)
      (.ok ⟨true, entry.contentHash, f.cid⟩)
      (update entries uri
        (some { entry with contentHash := f.cid, body := record.toText, indexedAt := now }))

/-- What a check makes of the answer of the repository. -/
theorem finding_check {e : Engine ρ ω} {uri : String} {st : State ρ ω} {entry : IndexedRecord}
    (hget : e.cache.get uri st.cache = .ok (some entry)) :
    (e.check uri st).1.finding = match (e.fetched uri entry st).1 with
      | .ok (some f) => .compared entry.contentHash f.cid
      | .ok none => .missing entry.contentHash
      | .error err => .fetchFailed entry.contentHash err := by
  unfold check
  rw [hget]
  rfl

/-- A check finds an entry up to date that has the content identifier of the answer. -/
theorem isStale_check_of_same {e : Engine ρ ω} {uri : String} {st : State ρ ω}
    {entry : IndexedRecord} {f : Fetched} (hget : e.cache.get uri st.cache = .ok (some entry))
    (hanswer : (e.fetched uri entry st).1 = .ok (some f)) (hcid : entry.contentHash = f.cid) :
    (e.check uri st).1.finding.isStale = some false := by
  rw [finding_check hget, hanswer, hcid, Finding.isStale, bne_self_eq_false]

/-- A check leaves the state that its fetch has left. -/
theorem snd_check (e : Engine ρ ω) (uri : String) (st : State ρ ω) :
    (e.check uri st).2 = e.afterFetch uri st := by
  unfold check afterFetch
  rcases e.cache.get uri st.cache with err | _ | entry <;> rfl

/-- A refresh has made the same fetch. -/
theorem world_refresh (e : Engine ρ ω) (now : Instant) (uri : String) (st : State ρ ω) :
    (e.refresh now uri st).2.world = (e.afterFetch uri st).world := by
  have hcases := e.refresh_cases now uri st
  generalize e.refresh now uri st = x at hcases
  cases hcases with
  | unread hget => rw [afterFetch, hget]
  | unknown hget => rw [afterFetch, hget]
  | unreachable hget hfetch => rw [afterFetch_of_get hget, hfetch]
  | missing hget hfetch => rw [afterFetch_of_get hget, hfetch]
  | confirmed hget hfetch hcid => rw [afterFetch_of_get hget, hfetch]
  | unacceptable hget hfetch hcid hvalue => rw [afterFetch_of_get hget, hfetch]
  | written hget hfetch hcid hvalue hupdate => rw [afterFetch_of_get hget, hfetch]

section Healthy
variable {e : Engine ρ ω} {entryAt : ρ → String → Option IndexedRecord}
  {serverAt : ρ → String → Option ServerEntry} {Sound : ρ → Prop} {now : Instant}
  (hc : e.cache.Healthy entryAt serverAt Sound now) (hr : e.repository.Discreet)
  {st : State ρ ω} (hst : Sound st.cache)
include hr

theorem cache_afterFetch (uri : String) : (e.afterFetch uri st).cache = st.cache := by
  unfold afterFetch
  split
  · exact cache_fetched hr uri _ st
  · rfl

include hc hst

/-- **A check and a refresh** go together in one of these ways. -/
theorem settles (uri : String) :
    e.Settles (entryAt st.cache) now uri st (e.check uri st).1.finding (e.refresh now uri st).1
      (entryAt (e.refresh now uri st).2.cache) := by
  have hread := hc.get uri hst
  have hentry : ∀ {found}, e.cache.get uri st.cache = .ok found → entryAt st.cache uri = found :=
    fun hget => Except.ok.inj (hread.symm.trans hget)
  have hcases := e.refresh_cases now uri st
  generalize e.refresh now uri st = x at hcases ⊢
  cases hcases with
  | unread hget => cases hread.symm.trans hget
  | unknown hget =>
    have hfinding : (e.check uri st).1.finding = .notIndexed := by
      unfold check
      rw [hget]
    rw [hfinding]
    exact .absent (hentry hget)
  | unreachable hget hfetch =>
    rw [finding_check hget, hfetch, cache_of_fetched hr hfetch]
    exact .unreachable (hentry hget) (congrArg Prod.fst hfetch)
  | missing hget hfetch =>
    rw [finding_check hget, hfetch, cache_of_fetched hr hfetch]
    exact .missing (hentry hget) (congrArg Prod.fst hfetch)
  | @confirmed entry st' f hget hfetch hcid =>
    have hfinding : (e.check uri st).1.finding = .compared entry.contentHash f.cid := by
      rw [finding_check hget, hfetch]
    rw [hfinding, hcid, cache_of_fetched hr hfetch]
    exact .same (hentry hget) (congrArg Prod.fst hfetch) hcid
  | unacceptable hget hfetch hcid hvalue =>
    rw [finding_check hget, hfetch, cache_of_fetched hr hfetch]
    exact .unacceptable (hentry hget) (congrArg Prod.fst hfetch) hcid hvalue
  | @written entry st' f record r cache hget hfetch hcid hvalue hupdate =>
    obtain ⟨hok, hentries⟩ := (hc.lawful.updateContent uri f.cid record.toText now
      st.cache).of_answer (hc.updateContent uri f.cid record.toText hst).answer
    rw [← cache_of_fetched hr hfetch, hupdate, cache_of_fetched hr hfetch] at hok hentries
    rw [hentry hget] at hok hentries
    obtain rfl : r = .ok true := hok
    rw [finding_check hget, hfetch, hentries]
    exact .other (hentry hget) (congrArg Prod.fst hfetch) hcid hvalue

/-- A refresh leaves a sound cache, and touches no server. -/
theorem sound_refresh (uri : String) :
    Sound (e.refresh now uri st).2.cache ∧
      serverAt (e.refresh now uri st).2.cache = serverAt st.cache := by
  have hcases := e.refresh_cases now uri st
  generalize e.refresh now uri st = x at hcases ⊢
  cases hcases with
  | unread hget => exact ⟨hst, rfl⟩
  | unknown hget => exact ⟨hst, rfl⟩
  | unreachable hget hfetch => rw [cache_of_fetched hr hfetch]; exact ⟨hst, rfl⟩
  | missing hget hfetch => rw [cache_of_fetched hr hfetch]; exact ⟨hst, rfl⟩
  | confirmed hget hfetch hcid => rw [cache_of_fetched hr hfetch]; exact ⟨hst, rfl⟩
  | unacceptable hget hfetch hcid hvalue => rw [cache_of_fetched hr hfetch]; exact ⟨hst, rfl⟩
  | @written entry st' f record r cache hget hfetch hcid hvalue hupdate =>
    have hanswered := hc.updateContent uri f.cid record.toText hst
    rw [← cache_of_fetched hr hfetch, hupdate, cache_of_fetched hr hfetch] at hanswered
    exact ⟨hanswered.sound, hanswered.servers⟩

end Healthy

/-! ### What the finding tells -/

/-- **A check predicts the refresh** of the same state. -/
structure Predicts (e : Engine ρ ω) (entryAt : ρ → String → Option IndexedRecord) (now : Instant)
    (uri : String) (st : State ρ ω) : Prop where
  /-- Without an entry nothing is fetched, and the refresh does not find the record. -/
  absent : (e.check uri st).1.finding.problem = some "not indexed" ↔ entryAt st.cache uri = none
  unfetched : entryAt st.cache uri = none →
    (e.check uri st).2 = st ∧ e.refresh now uri st = (.error (.notFound uri), st)
  /-- An entry without a record is one that the refresh does not find. -/
  missing : (e.check uri st).1.finding.problem = some "record not found in repository" ↔
    (entryAt st.cache uri).isSome ∧ (e.refresh now uri st).1 = .error (.notFound uri)
  /-- A failed fetch leaves the check undetermined and makes the refresh fail. -/
  unreachable : ∀ {entry err}, entryAt st.cache uri = some entry →
    (e.fetched uri entry st).1 = .error err →
    (e.check uri st).1.finding.isStale = none ∧
      (e.refresh now uri st).1 = .error (.transient (.fetch err))
  fresh : (e.check uri st).1.finding.isStale = some false ↔
    ∃ r, (e.refresh now uri st).1 = .ok r ∧ r.changed = false
  stale : (e.check uri st).1.finding.isStale = some true ↔
    (∃ r, (e.refresh now uri st).1 = .ok r ∧ r.changed = true) ∨
      ∃ fault, (e.refresh now uri st).1 = .error (.validation fault)
  /-- What is found invalid is the body that was fetched. -/
  body : ∀ {fault}, (e.refresh now uri st).1 = .error (.validation fault) →
    ∃ entry f, entryAt st.cache uri = some entry ∧ (e.fetched uri entry st).1 = .ok (some f) ∧
      Record.ofJson f.value = .error fault
  /-- A check leaves the cache alone, and makes the fetch that the refresh makes. -/
  kept : (e.check uri st).2.cache = st.cache
  fetches : (e.check uri st).2.world = (e.refresh now uri st).2.world
  /-- Whether the entry is stale is known unless there is a problem. -/
  determined : (e.check uri st).1.finding.isStale.isSome ↔
    (e.check uri st).1.finding.problem = none
  obtained : (e.check uri st).1.finding.currentCid.isSome ↔
    (e.check uri st).1.finding.problem = none
  /-- After a success, a check against the same answer finds the entry up to date. -/
  again : ∀ {r entry f}, (e.refresh now uri st).1 = .ok r → entryAt st.cache uri = some entry →
    (e.fetched uri entry st).1 = .ok (some f) → ∀ (repository : Repository ω ρ) (world : ω),
    let st' : State ρ ω := ⟨(e.refresh now uri st).2.cache, world⟩
    (repository.fetch uri (hintOf entry.endpoint) world st'.cache).1 = .ok (some f) →
    (({ e with repository } : Engine ρ ω).check uri st').1.finding.isStale = some false

section Settles
variable {e : Engine ρ ω} {entries entries' : String → Option IndexedRecord} {now : Instant}
  {uri : String} {st : State ρ ω} {finding : Finding} {outcome : Except IndexError Refresh}
  (h : e.Settles entries now uri st finding outcome entries')
include h

theorem Settles.notIndexed_iff : finding = .notIndexed ↔ entries uri = none := by
  cases h <;> simp_all

theorem Settles.missing_iff :
    (∃ indexed, finding = .missing indexed) ↔
      (entries uri).isSome ∧ outcome = .error (.notFound uri) := by
  cases h <;> simp_all

theorem Settles.of_unreachable {entry : IndexedRecord} {err : FetchError}
    (hentry : entries uri = some entry) (hanswer : (e.fetched uri entry st).1 = .error err) :
    finding = .fetchFailed entry.contentHash err ∧ outcome = .error (.transient (.fetch err)) := by
  cases h <;> simp_all

theorem Settles.fresh_iff :
    finding.isStale = some false ↔ ∃ r, outcome = .ok r ∧ r.changed = false := by
  cases h <;> simp_all [Finding.isStale]

theorem Settles.stale_iff :
    finding.isStale = some true ↔
      (∃ r, outcome = .ok r ∧ r.changed = true) ∨
        ∃ fault, outcome = .error (.validation fault) := by
  cases h <;> simp_all [Finding.isStale]

theorem Settles.of_validation {fault : InputFault} (hfault : outcome = .error (.validation fault)) :
    ∃ entry f, entries uri = some entry ∧ (e.fetched uri entry st).1 = .ok (some f) ∧
      Record.ofJson f.value = .error fault := by
  cases h with
  | absent | unreachable | missing | same | other => cases hfault
  | unacceptable hentry hanswer hcid hvalue =>
    cases hfault
    exact ⟨_, _, hentry, hanswer, hvalue⟩

/-- After a success the entry has the content identifier of the answer, and its server still. -/
theorem Settles.of_ok {r : Refresh} (hok : outcome = .ok r) {entry : IndexedRecord} {f : Fetched}
    (hentry : entries uri = some entry) (hanswer : (e.fetched uri entry st).1 = .ok (some f)) :
    ∃ entry', entries' uri = some entry' ∧ entry'.contentHash = f.cid ∧
      entry'.endpoint = entry.endpoint := by
  -- The entry and the answer of the constructor are the given ones.
  have hgiven : ∀ {entry₁ f₁}, entries uri = some entry₁ →
      (e.fetched uri entry₁ st).1 = .ok (some f₁) → entry₁ = entry ∧ f₁ = f := by
    intro entry₁ f₁ hentry₁ hanswer₁
    obtain rfl := Option.some.inj (hentry₁.symm.trans hentry)
    exact ⟨rfl, Option.some.inj (Except.ok.inj (hanswer₁.symm.trans hanswer))⟩
  cases h with
  | absent | unreachable | missing | unacceptable => cases hok
  | same hentry₁ hanswer₁ hcid =>
    obtain ⟨rfl, rfl⟩ := hgiven hentry₁ hanswer₁
    exact ⟨_, hentry, hcid.symm, rfl⟩
  | other hentry₁ hanswer₁ hcid hvalue =>
    obtain ⟨rfl, rfl⟩ := hgiven hentry₁ hanswer₁
    exact ⟨_, Function.update_self .., rfl, rfl⟩

end Settles

/-- **Predictions** over every healthy cache. -/
theorem predicts_of_healthy {e : Engine ρ ω} {entryAt : ρ → String → Option IndexedRecord}
    {serverAt : ρ → String → Option ServerEntry} {Sound : ρ → Prop} {now : Instant}
    (hc : e.cache.Healthy entryAt serverAt Sound now) (hr : e.repository.Discreet)
    {st : State ρ ω} (hst : Sound st.cache) (uri : String) : e.Predicts entryAt now uri st where
  absent := by
    rw [Finding.problem_eq_notIndexed_iff]
    exact (settles hc hr hst uri).notIndexed_iff
  unfetched := by
    intro hnone
    have hget := hc.get uri hst
    rw [hnone] at hget
    refine ⟨by rw [snd_check, afterFetch, hget], ?_⟩
    unfold refresh
    rw [hget]
  missing := by
    rw [Finding.problem_eq_missing_iff]
    exact (settles hc hr hst uri).missing_iff
  unreachable := by
    intro entry err hentry hanswer
    obtain ⟨hfinding, hrefresh⟩ := (settles hc hr hst uri).of_unreachable hentry hanswer
    exact ⟨by rw [hfinding]; rfl, hrefresh⟩
  fresh := (settles hc hr hst uri).fresh_iff
  stale := (settles hc hr hst uri).stale_iff
  body := by
    intro fault hfault
    exact (settles hc hr hst uri).of_validation hfault
  kept := by rw [snd_check, cache_afterFetch hr]
  fetches := by rw [snd_check, world_refresh]
  determined := Finding.isSome_isStale_iff _
  obtained := Finding.isSome_currentCid_iff _
  again := by
    intro r entry f hok hentry hanswer repository world st' hagain
    obtain ⟨entry', hentry', hcid, hendpoint⟩ := (settles hc hr hst uri).of_ok hok hentry hanswer
    have hget := hc.get uri (sound_refresh hc hr hst uri).1
    rw [hentry'] at hget
    rw [← hendpoint] at hagain
    exact isStale_check_of_same (e := { e with repository }) hget hagain hcid

/-- **What a check finds tells how a refresh ends**, from the same state and against the same
answer, for every repository that leaves the cache alone: over every healthy cache, over all states
of the cache in memory, and over the states of the relational one whose rows have dates. -/
theorem check_predicts (limit : Nat) (now : Instant) (uri : String) :
    (∀ {σ : Type} {cache : Cache.Store σ} {entryAt : σ → String → Option IndexedRecord}
      {serverAt : σ → String → Option ServerEntry} {Sound : σ → Prop},
      cache.Healthy entryAt serverAt Sound now → ∀ repository : Repository ω σ,
      repository.Discreet → ∀ st : State σ ω, Sound st.cache →
      Predicts ⟨cache, repository, limit⟩ entryAt now uri st) ∧
    (∀ repository : Repository ω Cache.Memory, repository.Discreet → ∀ st,
      Predicts ⟨Cache.Memory.store, repository, limit⟩ Cache.Memory.entryAt now uri st) ∧
    (Time.hasDate now = true → ∀ repository : Repository ω Cache.Relational,
      repository.Discreet → ∀ st : State Cache.Relational ω, st.cache.Dated →
      Predicts ⟨Cache.Relational.store, repository, limit⟩ Cache.Relational.entryAt now uri
        st) := by
  refine ⟨fun hc repository hr st hst => ?_, fun repository hr st => ?_,
    fun hnow repository hr st hdated => ?_⟩
  · exact predicts_of_healthy hc hr hst uri
  · exact predicts_of_healthy (Cache.Memory.healthy now) hr trivial uri
  · exact predicts_of_healthy (Cache.Relational.healthy hnow) hr hdated uri

/-- Five entries with one content identifier, whose fetches are counted: the first is confirmed, the
second has changed, the third has no acceptable body any more, the fourth does not exist, and the
fifth cannot be fetched. -/
theorem check_predicts_each :
    let uris := ["a", "b", "c", "d", "e"]
    let answer : String → Except FetchError (Option Fetched)
      | "a" => .ok (some ⟨"a", "c1", .null, "p"⟩)
      | "b" => .ok (some ⟨"b", "c2", eprintValue, "p"⟩)
      | "c" => .ok (some ⟨"c", "c2", .null, "p"⟩)
      | "d" => .ok none
      | _ => .error (.stated "down")
    let counting (ρ : Type) : Repository Nat ρ :=
      { fetch := fun uri _ n st => (answer uri, n + 1, st) }
    let entries : List IndexedRecord := uris.map fun uri => ⟨uri, "c1", "p", "", "", 0⟩
    let m := entries.foldl (fun m e => (Cache.Memory.store.upsert e m).2) .empty
    let r := entries.foldl (fun r e => (Cache.Relational.store.upsert e r).2) .empty
    let memory : Engine Cache.Memory Nat := ⟨Cache.Memory.store, counting _, 500⟩
    let relational : Engine Cache.Relational Nat := ⟨Cache.Relational.store, counting _, 500⟩
    (counting Cache.Memory).Discreet ∧ (counting Cache.Relational).Discreet ∧
      Time.hasDate 7 = true ∧ r.Dated ∧
      uris.map (fun uri => (memory.check uri ⟨m, 0⟩).1.finding) =
        [.compared "c1" "c1", .compared "c1" "c2", .compared "c1" "c2", .missing "c1",
          .fetchFailed "c1" (.stated "down")] ∧
      uris.map (fun uri => (memory.refresh 7 uri ⟨m, 0⟩).1.toOption) =
        [some ⟨false, "c1", "c1"⟩, some ⟨true, "c1", "c2"⟩, none, none, none] ∧
      (∀ uri, memory.Predicts Cache.Memory.entryAt 7 uri ⟨m, 0⟩) ∧
      (∀ uri, relational.Predicts Cache.Relational.entryAt 7 uri ⟨r, 0⟩) ∧
      memory.refresh 7 "f" ⟨m, 0⟩ = (.error (.notFound "f"), ⟨m, 0⟩) := by
  intro uris answer counting entries m r memory relational
  have hdated : r.Dated := by
    unfold Cache.Relational.Dated r entries uris
    decide +kernel
  have hmemory : ∀ uri, memory.Predicts Cache.Memory.entryAt 7 uri ⟨m, 0⟩ :=
    fun uri => (check_predicts 500 7 uri).2.1 (counting _) (fun _ _ _ _ => rfl) ⟨m, 0⟩
  have hrelational : ∀ uri, relational.Predicts Cache.Relational.entryAt 7 uri ⟨r, 0⟩ := fun uri =>
    (check_predicts 500 7 uri).2.2 (by decide) (counting _) (fun _ _ _ _ => rfl) ⟨r, 0⟩ hdated
  refine ⟨fun _ _ _ _ => rfl, fun _ _ _ _ => rfl, by decide, hdated, ?_, ?_, hmemory, hrelational,
    ?_⟩
  · unfold uris memory m entries uris counting answer
    decide +kernel
  · unfold uris memory m entries uris counting answer
    decide +kernel
  · exact ((hmemory "f").unfetched (by unfold m entries uris; decide +kernel)).2

end Engine

end PaperIndex.Sync
