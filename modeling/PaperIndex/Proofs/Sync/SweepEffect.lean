import PaperIndex.Proofs.Sync.Prediction

/-! # What a sweep leaves behind

A sweep changes the entries it has found stale as the repository has answered about each of them
(`judged`), and nothing else. Over a healthy cache, and with a repository that leaves it alone, this
is the whole effect (`sweep_effect`): no entry appears or disappears, the servers of the swept
entries are noted as swept, and what is stale afterwards is what was stale before without the
entries that have been refreshed. -/

namespace PaperIndex.Sync

open Time (Instant)
open Function (update)
open PaperIndex.Cache (AllBefore Named sweptAt)

/-- An answer of a repository. -/
abbrev Answer : Type := Except FetchError (Option Fetched)

/-! ### Answers about entries -/

/-- **What comes of a stale entry** by the answer about it: how it is counted, and the entry
afterwards. -/
def judged (now : Instant) (c : IndexedRecord) : Answer → Swept × IndexedRecord
  | .error _ => (.failed, c)
  | .ok none => (.notFound, c)
  | .ok (some f) =>
    if f.cid = c.contentHash then (.confirmed, { c with indexedAt := now })
    else match Record.ofJson f.value with
      | .error _ => (.failed, c)
      | .ok record =>
        (.changed, { c with contentHash := f.cid, body := record.toText, indexedAt := now })

/-- Whether an entry has been brought up to date. -/
def Swept.isRefreshed : Swept → Bool
  | .changed => true
  | .confirmed => true
  | .notFound => false
  | .failed => false

/-- The entries that have been brought up to date. -/
def refreshedBy (now : Instant) (answers : List (IndexedRecord × Answer)) : List IndexedRecord :=
  (answers.filter fun x => (judged now x.1 x.2).1.isRefreshed).map Prod.fst

section Judged
variable (now : Instant) (c : IndexedRecord) (a : Answer)

theorem uri_judged : (judged now c a).2.uri = c.uri := by
  fun_cases judged now c a <;> rfl

/-- An entry that is brought up to date is so from now on, and any other one stays as it was. -/
theorem judged_cases :
    ((judged now c a).1.isRefreshed = true ∧ (judged now c a).2.indexedAt = now) ∨
      ((judged now c a).1.isRefreshed = false ∧ (judged now c a).2 = c) := by
  fun_cases judged now c a
  · exact .inr ⟨rfl, rfl⟩
  · exact .inr ⟨rfl, rfl⟩
  · exact .inl ⟨rfl, rfl⟩
  · exact .inr ⟨rfl, rfl⟩
  · exact .inl ⟨rfl, rfl⟩

end Judged

/-- **The entries after a sweep**: those about which there are answers are as judged, and all others
as before. -/
structure Judges (now : Instant) (answers : List (IndexedRecord × Answer))
    (entries entries' : String → Option IndexedRecord) : Prop where
  entry : ∀ x ∈ answers, entries' x.1.uri = some (judged now x.1 x.2).2
  frame : ∀ uri, uri ∉ answers.map (·.1.uri) → entries' uri = entries uri

section Judges
variable {now : Instant} {answers : List (IndexedRecord × Answer)}
  {entries entries' : String → Option IndexedRecord} (h : Judges now answers entries entries')
include h

/-- The entry of a URI afterwards, with or without an answer about it. -/
theorem Judges.cases (uri : String) :
    (∃ x ∈ answers, x.1.uri = uri ∧ entries' uri = some (judged now x.1 x.2).2) ∨
      (uri ∉ answers.map (·.1.uri) ∧ entries' uri = entries uri) := by
  by_cases hmem : uri ∈ answers.map (·.1.uri)
  · obtain ⟨x, hx, rfl⟩ := List.mem_map.1 hmem
    exact .inl ⟨x, hx, rfl, h.entry x hx⟩
  · exact .inr ⟨hmem, h.frame uri hmem⟩

theorem Judges.named (hnamed : Named entries) : Named entries' := by
  intro uri e he
  rcases h.cases uri with ⟨x, hx, rfl, hentry⟩ | ⟨-, hsame⟩
  · obtain rfl := Option.some.inj (he.symm.trans hentry)
    exact uri_judged now x.1 x.2
  · exact hnamed uri e (hsame ▸ he)

variable (hcurrent : ∀ x ∈ answers, entries x.1.uri = some x.1)
include hcurrent

/-- No entry appears or disappears. -/
theorem Judges.isSome (uri : String) : (entries' uri).isSome = (entries uri).isSome := by
  rcases h.cases uri with ⟨x, hx, rfl, hentry⟩ | ⟨-, hsame⟩
  · rw [hentry, hcurrent x hx]
    rfl
  · rw [hsame]

/-- **What is stale afterwards**: what was stale before, without the entries that have been brought
up to date. -/
theorem Judges.allBefore {cutoff : Instant} (hcutoff : cutoff ≤ now) {all : List IndexedRecord}
    (hnodup : (answers.map (·.1.uri)).Nodup) (hall : AllBefore entries cutoff all) :
    AllBefore entries' cutoff (all.filter fun c => c ∉ refreshedBy now answers) := by
  refine ⟨fun e => ?_, hall.ordered.filter _⟩
  rw [List.mem_filter, decide_eq_true_eq, hall.mem_iff]
  rcases h.cases e.uri with ⟨x, hx, huri, hentry⟩ | ⟨hout, hsame⟩
  · have hbefore : entries e.uri = some x.1 := huri ▸ hcurrent x hx
    -- There is only one answer about the entry.
    have hrefreshed :
        x.1 ∈ refreshedBy now answers ↔ (judged now x.1 x.2).1.isRefreshed = true := by
      unfold refreshedBy
      rw [List.mem_map]
      constructor
      · rintro ⟨y, hy, hxy⟩
        obtain ⟨hy, hyes⟩ := List.mem_filter.1 hy
        obtain rfl := List.inj_on_of_nodup_map hnodup hy hx (by rw [hxy])
        exact hyes
      · exact fun hyes => ⟨x, List.mem_filter.2 ⟨hx, hyes⟩, rfl⟩
    rw [hbefore, hentry, Option.some.injEq, Option.some.injEq]
    rcases judged_cases now x.1 x.2 with ⟨hyes, hnow⟩ | ⟨hno, hleft⟩
    · constructor
      · rintro ⟨⟨rfl, -⟩, hnot⟩
        exact absurd (hrefreshed.2 hyes) hnot
      · rintro ⟨rfl, hlt⟩
        rw [hnow] at hlt
        exact absurd hlt hcutoff.not_gt
    · rw [hleft]
      constructor
      · exact And.left
      · rintro ⟨rfl, hlt⟩
        refine ⟨⟨rfl, hlt⟩, fun hmem => ?_⟩
        rw [hrefreshed.1 hmem] at hno
        cases hno
  · have hnot : e ∉ refreshedBy now answers := by
      intro hmem
      obtain ⟨x, hx, rfl⟩ := List.mem_map.1 hmem
      exact hout (List.mem_map.2 ⟨x, List.mem_of_mem_filter hx, rfl⟩)
    rw [hsame]
    exact and_iff_left hnot

end Judges

namespace Engine

variable {ρ ω : Type}

/-- **What the repository answers** about the entries of a sweep, each in its turn. -/
def answersOf (e : Engine ρ ω) (now : Instant) :
    List IndexedRecord → State ρ ω → List (IndexedRecord × Answer)
  | [], _ => []
  | c :: cs, st => (c, (e.fetched c.uri c st).1) :: e.answersOf now cs (e.sweepOne now c st).2

theorem map_fst_answersOf (e : Engine ρ ω) (now : Instant) (cs : List IndexedRecord)
    (st : State ρ ω) : (e.answersOf now cs st).map Prod.fst = cs := by
  induction cs generalizing st with
  | nil => rfl
  | cons c cs ih => exact congrArg (c :: ·) (ih _)

theorem map_uri_answersOf (e : Engine ρ ω) (now : Instant) (cs : List IndexedRecord)
    (st : State ρ ω) : (e.answersOf now cs st).map (·.1.uri) = cs.map (·.uri) := by
  rw [← e.map_fst_answersOf now cs st, List.map_map, e.map_fst_answersOf]
  rfl

/-! ### The refreshes of a sweep -/

section Healthy
variable {e : Engine ρ ω} {entryAt : ρ → String → Option IndexedRecord}
  {serverAt : ρ → String → Option ServerEntry} {Sound : ρ → Prop} {now : Instant}
  (hc : e.cache.Healthy entryAt serverAt Sound now) (hr : e.repository.Discreet)
include hc hr

/-- **The refresh of one entry** makes of it what its answer says. -/
theorem sweepOne_judged {c : IndexedRecord} {st : State ρ ω} (hst : Sound st.cache)
    (hcurrent : entryAt st.cache c.uri = some c) :
    let r := e.sweepOne now c st
    let x := judged now c (e.fetched c.uri c st).1
    r.1 = x.1 ∧ entryAt r.2.cache = update (entryAt st.cache) c.uri (some x.2) ∧
      Sound r.2.cache ∧ serverAt r.2.cache = serverAt st.cache := by
  have hsettles := settles hc hr hst c.uri
  obtain ⟨hsound, hservers⟩ := sound_refresh hc hr hst c.uri
  have hkept : entryAt st.cache = update (entryAt st.cache) c.uri (some c) := by
    rw [← hcurrent, Function.update_eq_self]
  have hentry : ∀ {entry}, entryAt st.cache c.uri = some entry → c = entry :=
    fun h => Option.some.inj (hcurrent.symm.trans h)
  unfold sweepOne
  generalize e.refresh now c.uri st = x at hsettles hsound hservers ⊢
  obtain ⟨outcome, st'⟩ := x
  dsimp only at hsettles hsound hservers
  generalize (e.check c.uri st).1.finding = finding at hsettles
  generalize hafter : entryAt st'.cache = entries at hsettles
  cases hsettles with
  | absent hnone => cases hnone.symm.trans hcurrent
  | unreachable hfound hanswer =>
    obtain rfl := hentry hfound
    simp only [hanswer, judged]
    exact ⟨rfl, hafter.trans hkept, hsound, hservers⟩
  | missing hfound hanswer =>
    obtain rfl := hentry hfound
    simp only [hanswer, judged]
    exact ⟨rfl, hafter.trans hkept, hsound, hservers⟩
  | same hfound hanswer hcid =>
    obtain rfl := hentry hfound
    simp only [hanswer, judged, if_pos hcid, true_and]
    obtain ⟨hanswered, hsound', hservers'⟩ := hc.touchVerified c.uri c.contentHash hsound
    obtain ⟨-, htouched⟩ :=
      (hc.lawful.touchVerified c.uri c.contentHash now st'.cache).of_answer hanswered
    rw [hafter, hcurrent, Option.map_some, beq_self_eq_true, if_pos rfl] at htouched
    exact ⟨htouched, hsound', hservers'.trans hservers⟩
  | unacceptable hfound hanswer hcid hvalue =>
    obtain rfl := hentry hfound
    simp only [hanswer, judged, if_neg hcid, hvalue]
    exact ⟨rfl, hafter.trans hkept, hsound, hservers⟩
  | other hfound hanswer hcid hvalue =>
    obtain rfl := hentry hfound
    simp only [hanswer, judged, if_neg hcid, hvalue]
    exact ⟨rfl, hafter, hsound, hservers⟩

/-- **The refreshes of a sweep** make of the entries what the answers about them say. -/
theorem sweepAll_judged {cs : List IndexedRecord} (hnodup : (cs.map (·.uri)).Nodup)
    {st : State ρ ω} (hst : Sound st.cache)
    (hcurrent : ∀ c ∈ cs, entryAt st.cache c.uri = some c) :
    let r := e.sweepAll (fun _ => now) cs st
    r.1 = (e.answersOf now cs st).map (fun x => (judged now x.1 x.2).1) ∧
      Judges now (e.answersOf now cs st) (entryAt st.cache) (entryAt r.2.cache) ∧
      Sound r.2.cache ∧ serverAt r.2.cache = serverAt st.cache := by
  induction cs generalizing st with
  | nil => exact ⟨rfl, ⟨nofun, fun _ _ => rfl⟩, hst, rfl⟩
  | cons c cs ih =>
    obtain ⟨hout, hnodup⟩ := List.nodup_cons.1 hnodup
    obtain ⟨hfirst, hrest⟩ := List.forall_mem_cons.1 hcurrent
    obtain ⟨houtcome, hentry, hsound, hservers⟩ := sweepOne_judged hc hr hst hfirst
    -- The first refresh has left the other entries alone.
    have hframe : ∀ uri, uri ≠ c.uri →
        entryAt (e.sweepOne now c st).2.cache uri = entryAt st.cache uri := by
      intro uri hne
      rw [hentry, Function.update_of_ne hne]
    obtain ⟨houtcomes, hjudges, hsound', hservers'⟩ := ih hnodup hsound fun c' hc' => by
      rw [hframe c'.uri (ne_of_mem_of_not_mem (List.mem_map_of_mem hc') hout)]
      exact hrest c' hc'
    refine ⟨?_, ⟨?_, ?_⟩, hsound', hservers'.trans hservers⟩
    · exact congrArg₂ List.cons houtcome houtcomes
    · refine List.forall_mem_cons.2 ⟨?_, hjudges.entry⟩
      have hlater := hjudges.frame c.uri (by rwa [e.map_uri_answersOf])
      exact hlater.trans ((congrFun hentry c.uri).trans (Function.update_self ..))
    · intro uri huri
      rw [answersOf, List.map_cons, List.mem_cons, not_or] at huri
      obtain ⟨hne, huri⟩ := huri
      exact (hjudges.frame uri huri).trans (hframe uri hne)

omit hr in
/-- **The servers after a sweep** of endpoints: the registered ones among them are noted. -/
theorem markAll_servers (endpoints : List String) {cache : ρ} (hst : Sound cache) :
    Sound (e.markAll now endpoints cache) ∧
      ∀ endpoint, serverAt (e.markAll now endpoints cache) endpoint =
        (serverAt cache endpoint).map fun s =>
          if endpoint ∈ endpoints then sweptAt now s else s := by
  induction endpoints generalizing cache with
  | nil => exact ⟨hst, fun endpoint => by simp [markAll]⟩
  | cons first endpoints ih =>
    obtain ⟨hsound, hservers⟩ := hc.markSwept first hst
    obtain ⟨hsound', hservers'⟩ := ih hsound
    refine ⟨hsound', fun endpoint => (hservers' endpoint).trans ?_⟩
    rw [hservers]
    by_cases hfirst : endpoint = first
    · subst hfirst
      rw [Function.update_self, Option.map_map]
      -- To be noted twice is to be noted once.
      refine congrArg (Option.map · _) (funext fun s => ?_)
      rw [Function.comp_apply, if_pos List.mem_cons_self]
      split <;> rfl
    · rw [Function.update_of_ne hfirst]
      simp only [List.mem_cons, hfirst, false_or]

end Healthy

theorem mem_endpointsOf {entries : List IndexedRecord} {endpoint : String} :
    endpoint ∈ endpointsOf entries ↔ endpoint ≠ "" ∧ ∃ c ∈ entries, c.endpoint = endpoint := by
  unfold endpointsOf
  rw [List.mem_mergeSort, List.mem_eraseDups, List.mem_filter, List.mem_map, and_comm]
  simp

/-! ### The whole effect -/

/-- **The effect of a sweep** on a state in which the given entries are stale, of which it takes the
first ones up to its limit, and gets the given answers about them. -/
structure SweepEffect (e : Engine ρ ω) (entryAt : ρ → String → Option IndexedRecord)
    (serverAt : ρ → String → Option ServerEntry) (now : Instant) (maxAge : Int) (limit : Nat)
    (st : State ρ ω) (stale : List IndexedRecord) (answers : List (IndexedRecord × Answer)) :
    Prop where
  before : AllBefore (entryAt st.cache) (now - maxAge) stale
  detected : ∀ n, stale.length ≤ n → (e.withScanLimit n).detect now maxAge st = .ok stale
  /-- Each of the first ones is asked for once. -/
  asked : answers.map Prod.fst = stale.take limit
  report : (e.sweep now maxAge limit st).1 =
    .ok (.of (answers.map fun x => (judged now x.1 x.2).1))
  entries : Judges now answers (entryAt st.cache) (entryAt (e.sweep now maxAge limit st).2.cache)
  /-- No entry appears or disappears. -/
  present : ∀ uri, (entryAt (e.sweep now maxAge limit st).2.cache uri).isSome =
    (entryAt st.cache uri).isSome
  /-- The registered servers of the first ones are noted as swept. -/
  servers : ∀ endpoint, serverAt (e.sweep now maxAge limit st).2.cache endpoint =
    (serverAt st.cache endpoint).map fun s =>
      if endpoint ≠ "" ∧ ∃ c ∈ stale.take limit, c.endpoint = endpoint then sweptAt now s else s
  /-- What is still stale is what has not been brought up to date. -/
  left : ∀ n, stale.length ≤ n →
    (e.withScanLimit n).detect now maxAge (e.sweep now maxAge limit st).2 =
      .ok (stale.filter fun c => c ∉ refreshedBy now answers)

section Effect
variable {e : Engine ρ ω} {entryAt : ρ → String → Option IndexedRecord}
  {serverAt : ρ → String → Option ServerEntry} {Sound : ρ → Prop} {now : Instant}
  (hc : e.cache.Healthy entryAt serverAt Sound now) {maxAge : Int} (hage : 0 ≤ maxAge)
  (hcutoff : Time.hasDate (now - maxAge) = true) {st : State ρ ω} (hst : Sound st.cache)
  (hnamed : Named (entryAt st.cache))
include hc hage hcutoff hst hnamed

/-- **A detection** whose limit is not reached finds all stale entries. -/
theorem detect_of_allBefore {all : List IndexedRecord}
    (hall : AllBefore (entryAt st.cache) (now - maxAge) all) {n : Nat} (hn : all.length ≤ n) :
    (e.withScanLimit n).detect now maxAge st = .ok all := by
  obtain ⟨all', hall', hscan⟩ := hc.indexedBefore (now - maxAge) hst hnamed
  obtain rfl := hall.unique hnamed hall'
  refine (stale_of_scan (e := e) hage hcutoff (hscan (max n 1))).trans ?_
  rw [List.take_of_length_le (hn.trans (Nat.le_max_left n 1))]

/-- **The effect** of a sweep over a healthy cache. -/
theorem exists_sweepEffect (hr : e.repository.Discreet) (limit : Nat) :
    ∃ stale, e.SweepEffect entryAt serverAt now maxAge limit st stale
      (e.answersOf now (stale.take limit) st) := by
  obtain ⟨stale, hall, hscan⟩ := hc.indexedBefore (now - maxAge) hst hnamed
  refine ⟨stale, ?_⟩
  have hfirst := hall.firstBefore hnamed limit
  have hsweep := sweep_of_stale (stale_of_scan hage hcutoff (hscan limit))
  generalize hcs : stale.take limit = cs at hfirst hsweep ⊢
  obtain ⟨houtcomes, hjudges, hsound, hservers⟩ :=
    sweepAll_judged hc hr hfirst.nodup hst hfirst.entry
  obtain ⟨hsound', hmarked⟩ := markAll_servers hc (endpointsOf cs) hsound
  have hcurrent : ∀ x ∈ e.answersOf now cs st, entryAt st.cache x.1.uri = some x.1 := by
    intro x hx
    refine hfirst.entry x.1 ?_
    rw [← e.map_fst_answersOf now cs st]
    exact List.mem_map_of_mem hx
  have hafter : entryAt (e.sweep now maxAge limit st).2.cache =
      entryAt (e.sweepAll (fun _ => now) cs st).2.cache := by
    rw [hsweep]
    exact entryAt_markAll hc.lawful now _ _
  rw [← hafter] at hjudges
  have hleft := hjudges.allBefore hcurrent (Int.sub_le_self now hage)
    (by rw [e.map_uri_answersOf]; exact hfirst.nodup) hall
  exact {
    before := hall
    detected := fun n hn => detect_of_allBefore hc hage hcutoff hst hnamed hall hn
    asked := (e.map_fst_answersOf now cs st).trans hcs.symm
    report := by rw [hsweep, houtcomes]
    entries := hjudges
    present := hjudges.isSome hcurrent
    servers := fun endpoint => by
      rw [hsweep, hmarked, hservers, hcs]
      simp only [mem_endpointsOf]
    left := fun n hn => by
      refine detect_of_allBefore hc hage hcutoff ?_ (hjudges.named hnamed) hleft
        ((List.length_filter_le _ _).trans hn)
      rw [hsweep]
      exact hsound' }

end Effect

/-- **The effect of every sweep** with a cutoff that has a date, for every repository that leaves
the cache alone. A negative age is refused, and nothing changes. For any other one the effect is the
one above, over every healthy cache, over the cache in memory, and over the relational one. -/
theorem sweep_effect (scanLimit : Nat) {now : Instant} {maxAge : Int}
    (hcutoff : Time.hasDate (now - maxAge) = true) (limit : Nat) :
    (maxAge < 0 → ∀ {σ : Type} (cache : Cache.Store σ) (repository : Repository ω σ)
      (st : State σ ω), let e : Engine σ ω := ⟨cache, repository, scanLimit⟩
      e.sweep now maxAge limit st = (.error (.failed (.validation .negativeAge)), st)) ∧
    (0 ≤ maxAge →
      (∀ {σ : Type} {cache : Cache.Store σ} {entryAt : σ → String → Option IndexedRecord}
        {serverAt : σ → String → Option ServerEntry} {Sound : σ → Prop},
        cache.Healthy entryAt serverAt Sound now → ∀ repository : Repository ω σ,
        repository.Discreet → ∀ st : State σ ω, Sound st.cache → Named (entryAt st.cache) →
        let e : Engine σ ω := ⟨cache, repository, scanLimit⟩
        ∃ stale, e.SweepEffect entryAt serverAt now maxAge limit st stale
          (e.answersOf now (stale.take limit) st)) ∧
      (∀ repository : Repository ω Cache.Memory, repository.Discreet →
        ∀ st : State Cache.Memory ω, st.cache.Keyed →
        let e : Engine Cache.Memory ω := ⟨Cache.Memory.store, repository, scanLimit⟩
        ∃ stale, e.SweepEffect Cache.Memory.entryAt Cache.Memory.serverAt now maxAge limit st stale
          (e.answersOf now (stale.take limit) st)) ∧
      (Time.hasDate now = true → ∀ repository : Repository ω Cache.Relational,
        repository.Discreet → ∀ st : State Cache.Relational ω, st.cache.Dated →
        let e : Engine Cache.Relational ω := ⟨Cache.Relational.store, repository, scanLimit⟩
        ∃ stale, e.SweepEffect Cache.Relational.entryAt Cache.Relational.serverAt now maxAge limit
          st stale (e.answersOf now (stale.take limit) st))) := by
  refine ⟨fun hage σ cache repository st => ?_, fun hage => ⟨fun hc repository hr st hst hnamed => ?_,
    fun repository hr st hkeyed => ?_, fun hnow repository hr st hdated => ?_⟩⟩
  · simp only [sweep, stale_eq, if_pos hage]
  · exact exists_sweepEffect hc hage hcutoff hst hnamed hr limit
  · exact exists_sweepEffect (Cache.Memory.healthy now) hage hcutoff trivial
      (Cache.Memory.keyed_iff.1 hkeyed) hr limit
  · exact exists_sweepEffect (Cache.Relational.healthy hnow) hage hcutoff hdated
      st.cache.named_entryAt hr limit

/-- A sweep of five out of six stale entries: the first is confirmed, the second has changed, the
third has no acceptable body any more, the fourth does not exist, and the fifth cannot be fetched.
Of the three servers one belongs to the sixth entry only. -/
theorem sweep_effect_mixed :
    let answer : String → Answer
      | "a" => .ok (some ⟨"a", "c1", .null, "p"⟩)
      | "b" => .ok (some ⟨"b", "c2", eprintValue, "p"⟩)
      | "c" => .ok (some ⟨"c", "c2", .null, "p"⟩)
      | "d" => .ok none
      | _ => .error (.stated "down")
    let silent (ρ : Type) : Repository Unit ρ := { fetch := fun uri _ w st => (answer uri, w, st) }
    let entries : List IndexedRecord := [("a", "p", 1), ("b", "p", 2), ("c", "", 3), ("d", "q", 4),
      ("e", "s", 5), ("f", "r", 6), ("g", "r", 90)].map fun x =>
        ⟨x.1, "c1", x.2.1, "pub.chive.eprint.submission", "", x.2.2⟩
    let loaded {ρ : Type} (s : Cache.Store ρ) (st : ρ) : ρ :=
      ["p", "q", "r"].foldl (fun st p => (s.registerServer p 0 st).2)
        (entries.foldl (fun st e => (s.upsert e st).2) st)
    let m := loaded Cache.Memory.store .empty
    let r := loaded Cache.Relational.store .empty
    let memory : Engine Cache.Memory Unit := ⟨Cache.Memory.store, silent _, 500⟩
    let relational : Engine Cache.Relational Unit := ⟨Cache.Relational.store, silent _, 500⟩
    let m' := (memory.sweep 100 50 5 ⟨m, ()⟩).2.cache
    (0 : Int) ≤ 50 ∧ Time.hasDate (100 - 50) = true ∧ Time.hasDate 100 = true ∧
      (silent Cache.Memory).Discreet ∧ (silent Cache.Relational).Discreet ∧ m.Keyed ∧ r.Dated ∧
      (entries.map fun c => (m'.entryAt c.uri).map fun e => (e.contentHash, e.indexedAt)) =
        [some ("c1", 100), some ("c2", 100), some ("c1", 3), some ("c1", 4), some ("c1", 5),
          some ("c1", 6), some ("c1", 90)] ∧
      (["p", "q", "r", "s"].map fun p => (m'.serverAt p).map (·.lastSweptAt)) =
        [some (some 100), some (some 100), some none, none] ∧
      (∃ stale, memory.SweepEffect Cache.Memory.entryAt Cache.Memory.serverAt 100 50 5 ⟨m, ()⟩ stale
        (memory.answersOf 100 (stale.take 5) ⟨m, ()⟩)) ∧
      ∃ stale, relational.SweepEffect Cache.Relational.entryAt Cache.Relational.serverAt 100 50 5
        ⟨r, ()⟩ stale (relational.answersOf 100 (stale.take 5) ⟨r, ()⟩) := by
  intro answer silent entries loaded m r memory relational m'
  have hcutoff : Time.hasDate (100 - 50) = true := by decide
  have hkeyed : m.Keyed := by
    unfold Cache.Memory.Keyed m loaded entries
    decide +kernel
  have hdated : r.Dated := by
    unfold Cache.Relational.Dated r loaded entries
    decide +kernel
  have hm' : m' = memory.markAll 100 ["p", "q", "s"]
      (memory.sweepAll (fun _ => 100) (entries.take 5) ⟨m, ()⟩).2.cache := by
    have hscan : Cache.Memory.store.indexedBefore (100 - 50) 5 m = .ok (entries.take 5) := by
      refine @Cache.Memory.indexedBefore_of_perm m (100 - 50) (entries.take 6) ?_ ?_ ?_ 5 <;>
        (unfold entries; decide +kernel)
    have hends : endpointsOf (entries.take 5) = ["p", "q", "s"] := by
      refine (List.mergeSort_of_pairwise ?_).trans ?_ <;> (unfold entries; decide +kernel)
    unfold m'
    rw [sweep_of_stale (stale_of_scan (by decide) hcutoff hscan), hends]
  obtain ⟨-, hmemory, hrelational⟩ := (sweep_effect 500 hcutoff 5).2 (by decide)
  refine ⟨by decide, hcutoff, by decide, fun _ _ _ _ => rfl, fun _ _ _ _ => rfl, hkeyed, hdated, ?_,
    ?_, hmemory (silent _) (fun _ _ _ _ => rfl) ⟨m, ()⟩ hkeyed,
    hrelational (by decide) (silent _) (fun _ _ _ _ => rfl) ⟨r, ()⟩ hdated⟩
  · rw [hm']
    unfold memory m loaded entries silent answer
    decide +kernel
  · rw [hm']
    unfold memory m loaded entries silent answer
    decide +kernel

end Engine

end PaperIndex.Sync
