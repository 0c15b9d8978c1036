import PaperIndex.Proofs.Cache.Health
import PaperIndex.Proofs.Sync.Agreement
import PaperIndex.Proofs.Sync.Endpoints

/-! # The registry of servers

A lawful registry is a map from endpoints to servers to which only registrations add
(`Store.LawfulRegistry`). What every call of a cache keeps, requests and sessions keep as well
(`keeps_serve`, `keeps_run`), so only normal forms of endpoints are ever registered.
`registrations_settle` says what a registration comes to, what registering its endpoint once more
does, and which servers of a registry can have one normal form in common. -/

namespace PaperIndex

open Time (Instant)
open Function (update)
open Text (isBlank isSlash startsWith endsWith)

namespace Cache

section Laws
variable {ρ : Type} (serverAt : ρ → String → Option ServerEntry)

/-- **A lawful registry**, where `serverAt` are the servers of a state. A registration is answered,
and changes nothing if the server is there already. -/
structure Store.LawfulRegistry (s : Store ρ) : Prop where
  registers : ∀ endpoint t st, (s.registerServer endpoint t st).1 = .ok () ∧
    serverAt (s.registerServer endpoint t st).2 =
      update (serverAt st) endpoint (some ((serverAt st endpoint).getD ⟨endpoint, t, none⟩))
  known : ∀ {endpoint} t {st}, (serverAt st endpoint).isSome →
    (s.registerServer endpoint t st).2 = st
  markSwept : ∀ endpoint t st p,
    (serverAt (s.markSwept endpoint t st).2 p).isSome = (serverAt st p).isSome
  upsert : ∀ r st, serverAt (s.upsert r st).2 = serverAt st
  updateContent : ∀ uri hash body t st,
    serverAt (s.updateContent uri hash body t st).2 = serverAt st
  updateSource : ∀ uri hash endpoint t st,
    serverAt (s.updateSource uri hash endpoint t st).2 = serverAt st
  touchVerified : ∀ uri hash t st, serverAt (s.touchVerified uri hash t st).2 = serverAt st
  delete : ∀ uri st, serverAt (s.delete uri st).2 = serverAt st

/-- All registered endpoints pass a test. -/
def OnlyServers (Q : String → Prop) (st : ρ) : Prop := ∀ p, (serverAt st p).isSome → Q p

/-- **What every call of a cache keeps**, when only endpoints that pass a test are registered. -/
structure Store.Keeps (s : Store ρ) (P : ρ → Prop) (Q : String → Prop) : Prop where
  upsert : ∀ r {st}, P st → P (s.upsert r st).2
  updateContent : ∀ uri hash body t {st}, P st → P (s.updateContent uri hash body t st).2
  updateSource : ∀ uri hash endpoint t {st}, P st → P (s.updateSource uri hash endpoint t st).2
  touchVerified : ∀ uri hash t {st}, P st → P (s.touchVerified uri hash t st).2
  delete : ∀ uri {st}, P st → P (s.delete uri st).2
  registerServer : ∀ {endpoint} t {st}, Q endpoint → P st → P (s.registerServer endpoint t st).2
  markSwept : ∀ endpoint t {st}, P st → P (s.markSwept endpoint t st).2

variable {serverAt} {P : ρ → Prop} {Q : String → Prop}

theorem keeps_failing {α : Type} {st : ρ} {r : Except StoreError α × ρ} {failing : Prop}
    [Decidable failing] {err : StoreError} (hst : P st) (h : P r.2) :
    P (if failing then (.error err, st) else r).2 := by
  split
  · exact hst
  · exact h

theorem Store.Keeps.failing {s : Store ρ} (h : s.Keeps P Q) (calls : List Call) :
    (s.failing calls).Keeps P Q where
  upsert r _ hst := keeps_failing hst (h.upsert r hst)
  updateContent uri hash body t _ hst := keeps_failing hst (h.updateContent uri hash body t hst)
  updateSource uri hash endpoint t _ hst :=
    keeps_failing hst (h.updateSource uri hash endpoint t hst)
  touchVerified uri hash t _ hst := keeps_failing hst (h.touchVerified uri hash t hst)
  delete uri _ hst := keeps_failing hst (h.delete uri hst)
  registerServer t _ hendpoint hst := keeps_failing hst (h.registerServer t hendpoint hst)
  markSwept endpoint t _ hst := keeps_failing hst (h.markSwept endpoint t hst)

theorem OnlyServers.congr {st st' : ρ} (hst : OnlyServers serverAt Q st)
    (h : serverAt st' = serverAt st) : OnlyServers serverAt Q st' := by
  rwa [OnlyServers, h]

/-- **Only registrations add servers**, each the one under its endpoint. -/
theorem Store.LawfulRegistry.keeps {s : Store ρ} (h : s.LawfulRegistry serverAt)
    (Q : String → Prop) : s.Keeps (OnlyServers serverAt Q) Q where
  upsert r _ hst := hst.congr (h.upsert r _)
  updateContent uri hash body t _ hst := hst.congr (h.updateContent uri hash body t _)
  updateSource uri hash endpoint t _ hst := hst.congr (h.updateSource uri hash endpoint t _)
  touchVerified uri hash t _ hst := hst.congr (h.touchVerified uri hash t _)
  delete uri _ hst := hst.congr (h.delete uri _)
  registerServer {endpoint} t st hendpoint hst := by
    intro p hp
    rw [(h.registers endpoint t st).2, Function.update_apply] at hp
    split at hp
    · next heq => rwa [heq]
    · exact hst p hp
  markSwept endpoint t st hst := by
    intro p hp
    rw [h.markSwept endpoint t st p] at hp
    exact hst p hp

end Laws

namespace Memory

theorem lawfulRegistry : store.LawfulRegistry serverAt where
  registers endpoint t m := by
    change (if (m.serverAt endpoint).isSome then _ else _ : Except StoreError Unit × Memory).1 = _ ∧
      serverAt (if (m.serverAt endpoint).isSome then _ else _ : Except StoreError Unit × Memory).2 =
        _
    cases hfind : m.serverAt endpoint with
    | none => exact ⟨rfl, funext fun p => (Table.find?_insert m.registry endpoint _ p).trans
        (Function.update_apply _ _ _ _).symm⟩
    | some server => exact ⟨rfl, (hfind ▸ Function.update_eq_self endpoint m.serverAt).symm⟩
  known t m hsome := congrArg Prod.snd (if_pos hsome)
  markSwept endpoint t m p := by
    have hfind := Table.find?_modify m.registry endpoint
      (fun s => { s with lastSweptAt := some t }) p
    refine (congrArg Option.isSome hfind).trans ?_
    split <;> simp [serverAt]
  upsert _ _ := rfl
  updateContent uri _ _ _ m := congrArg Table.find? (m.registry_update uri _ _)
  updateSource uri _ _ _ m := congrArg Table.find? (m.registry_update uri _ _)
  touchVerified uri _ _ m := congrArg Table.find? (m.registry_update uri _ _)
  delete _ _ := rfl

end Memory

namespace Relational

theorem serverAt_update (r : Relational) (uri : String) (test : RecordRow → Bool)
    (f : RecordRow → RecordRow) : (r.update uri test f).2.serverAt = r.serverAt := by
  unfold Relational.update
  split <;> rfl

theorem isSome_serverAt (r : Relational) (endpoint : String) :
    (r.serverAt endpoint).isSome = r.registry.contains endpoint := by
  rw [serverAt, Option.isSome_map, Table.isSome_find?]

theorem lawfulRegistry : store.LawfulRegistry serverAt where
  registers endpoint t r := by
    change (if r.registry.contains endpoint then _ else _ :
        Except StoreError Unit × Relational).1 = _ ∧
      serverAt (if r.registry.contains endpoint then _ else _ :
        Except StoreError Unit × Relational).2 = _
    rw [← isSome_serverAt]
    cases hfind : r.serverAt endpoint with
    | none =>
      refine ⟨rfl, funext fun p => ?_⟩
      rw [Function.update_apply]
      refine (congrArg (Option.map (ServerRow.entry p))
        (Table.find?_insert r.registry endpoint ⟨t, none⟩ p)).trans ?_
      split
      · next heq => rw [heq]; rfl
      · rfl
    | some server => exact ⟨rfl, (hfind ▸ Function.update_eq_self endpoint r.serverAt).symm⟩
  known t r hsome := congrArg Prod.snd (if_pos ((r.isSome_serverAt _).symm.trans hsome))
  markSwept endpoint t r p := by
    have hfind := Table.find?_modify r.registry endpoint
      (fun row => { row with lastSweptAt := some t }) p
    refine (congrArg (Option.isSome ∘ Option.map (ServerRow.entry p)) hfind).trans ?_
    split <;> simp [serverAt]
  upsert _ _ := rfl
  updateContent uri _ _ _ r := r.serverAt_update uri _ _
  updateSource uri _ _ _ r := r.serverAt_update uri _ _
  touchVerified uri _ _ r := r.serverAt_update uri _ _
  delete _ _ := rfl

end Relational

end Cache

namespace Sync

variable {ρ ω : Type}

/-! ### Requests and sessions -/

namespace Engine

section Keeps
variable {e : Engine ρ ω} {P : ρ → Prop} {Q : String → Prop} (hc : e.cache.Keeps P Q)
  (hr : ∀ uri hint world {cache}, P cache → P (e.repository.fetch uri hint world cache).2.2)
  {now : Instant} {st : State ρ ω} (hst : P st.cache)
include hc hst

theorem keeps_index (uri cid endpoint : String) (value : Json) :
    P (e.index now uri cid endpoint value st).2.cache := by
  unfold index
  simp only
  split
  · exact hst
  · exact hc.upsert _ hst

theorem keeps_registerServer {endpoint : String}
    (hQ : ∀ {n}, Endpoint.normalize endpoint = .ok n → Q n) :
    P (e.registerServer now endpoint st).2.cache := by
  unfold registerServer
  split
  · exact hst
  · next n hn => exact hc.registerServer now (hQ hn) hst

theorem keeps_markAll (endpoints : List String) : P (e.markAll now endpoints st.cache) := by
  unfold markAll
  refine List.foldlRecOn endpoints _ hst fun cache hcache p _ => ?_
  exact hc.markSwept p now hcache

include hr

omit hc in
theorem keeps_fetched (uri : String) (entry : IndexedRecord) : P (e.fetched uri entry st).2.cache :=
  hr uri _ st.world hst

theorem keeps_refresh (uri : String) : P (e.refresh now uri st).2.cache := by
  have hfetched : ∀ {entry answer st'}, e.fetched uri entry st = (answer, st') → P st'.cache := by
    intro entry answer st' hfetch
    have h := keeps_fetched hr hst uri entry
    rwa [hfetch] at h
  have hcases := e.refresh_cases now uri st
  generalize e.refresh now uri st = x at hcases
  cases hcases with
  | unread hget => exact hst
  | unknown hget => exact hst
  | unreachable hget hfetch => exact hfetched hfetch
  | missing hget hfetch => exact hfetched hfetch
  | confirmed hget hfetch hcid => exact hfetched hfetch
  | unacceptable hget hfetch hcid hvalue => exact hfetched hfetch
  | @written entry st' f record r cache hget hfetch hcid hvalue hupdate =>
    have h := hc.updateContent uri f.cid record.toText now (hfetched hfetch)
    rwa [hupdate] at h

theorem keeps_sweepOne (entry : IndexedRecord) : P (e.sweepOne now entry st).2.cache := by
  have hrefresh : P (e.refresh now entry.uri st).2.cache := keeps_refresh hc hr hst entry.uri
  unfold sweepOne
  rcases hx : e.refresh now entry.uri st with ⟨err | ⟨_ | _, previous, current⟩, st'⟩ <;>
    rw [hx] at hrefresh
  · exact hrefresh
  · exact hc.touchVerified entry.uri current now hrefresh
  · exact hrefresh

theorem keeps_sweepAll (entries : List IndexedRecord) :
    P (e.sweepAll (fun _ => now) entries st).2.cache := by
  induction entries generalizing st with
  | nil => exact hst
  | cons entry entries ih => exact ih (keeps_sweepOne hc hr hst entry)

/-- **What every call keeps, a request keeps**, if the repository does. -/
theorem keeps_serve {q : Request}
    (hQ : ∀ {s n}, q = .registerServer s → Endpoint.normalize s = .ok n → Q n) :
    P (e.serve now q st).2.cache := by
  cases q with
  | index uri cid endpoint value => exact keeps_index hc hst uri cid endpoint value
  | track uri cid endpoint => exact hc.updateSource uri cid endpoint now hst
  | delete uri => exact hc.delete uri hst
  | check uri =>
    change P (e.check uri st).2.cache
    unfold check
    split
    · exact hst
    · exact hst
    · exact keeps_fetched hr hst uri _
  | refresh uri => exact keeps_refresh hc hr hst uri
  | detect maxAge => exact hst
  | sweep maxAge limit =>
    change P (e.sweep now maxAge limit st).2.cache
    unfold sweep
    split
    · exact hst
    · next entries _ =>
      have hswept : P (e.sweepAll (fun _ => now) entries st).2.cache :=
        keeps_sweepAll hc hr hst entries
      exact keeps_markAll hc hswept _
  | registerServer endpoint =>
    rw [serve, snd_answered]
    exact keeps_registerServer hc hst (hQ rfl)
  | servers => exact hst

end Keeps

end Engine

/-- **What every call keeps, a session keeps.** -/
theorem Setup.keeps_run {cache : Cache.Store ρ} {P : ρ → Prop} {Q : String → Prop}
    (hc : cache.Keeps P Q) (s : Setup ω) {session : List (Int × Request)}
    (hQ : ∀ {reading text n}, (reading, .registerServer text) ∈ session →
      Endpoint.normalize text = .ok n → Q n)
    {st : State ρ (Watched ω)} (hst : P st.cache) : P (s.run cache session st).cache := by
  induction session generalizing st with
  | nil => exact hst
  | cons call session ih =>
    obtain ⟨reading, q⟩ := call
    refine ih (fun hmem => hQ (List.mem_cons_of_mem _ hmem))
      (Engine.keeps_serve (hc.failing s.failing) ?_ hst ?_)
    · intro uri hint world st' hst'
      refine List.foldlRecOn _ _ hst' fun cache' hcache' edit _ => ?_
      cases edit with
      | delete uri => exact hc.delete uri hcache'
      | rewrite uri cid body => exact hc.updateContent uri cid body _ hcache'
    · rintro text n rfl
      exact hQ (List.mem_cons_self ..)

/-! ### Registering an endpoint again -/

/-- **What a registration comes to** that registers a text as the endpoint `n`. -/
structure Engine.Registration (e : Engine ρ ω) (serverAt : ρ → String → Option ServerEntry)
    (now : Instant) (text n : String) (st : State ρ ω) : Prop where
  start : startsWith isBlank n = false
  slash : endsWith isSlash n = false
  /-- A server that was there before keeps its instants. -/
  servers : serverAt (e.registerServer now text st).2.cache =
    update (serverAt st.cache) n (some ((serverAt st.cache n).getD ⟨n, now, none⟩))
  /-- Registering the endpoint again is accepted. -/
  again : ∀ later, (e.registerServer later n (e.registerServer now text st).2).1 =
    .ok (Text.trimEndSlashes (Text.trim n))
  blank_iff : endsWith isBlank n = true ↔ Endpoint.BlankBeforeSlashes text
  /-- It gives the endpoint itself and changes nothing, unless a blank has been left. -/
  same_iff : (∀ later, e.registerServer later n (e.registerServer now text st).2 =
      (.ok n, (e.registerServer now text st).2)) ↔ ¬Endpoint.BlankBeforeSlashes text

/-- Different servers with one normal form come only of texts with a blank before their slashes. -/
def FormsSettle (session : List (Int × Request)) (servers : String → Option ServerEntry) : Prop :=
  ∀ p q, (servers p).isSome → (servers q).isSome →
    Endpoint.normalize p = Endpoint.normalize q → p ≠ q →
    ∃ reading text, (reading, .registerServer text) ∈ session ∧
      Endpoint.BlankBeforeSlashes text ∧
      (Endpoint.normalize text = .ok p ∨ Endpoint.normalize text = .ok q)

section Lawful
variable {cache : Cache.Store ρ} {serverAt : ρ → String → Option ServerEntry}
  (hc : cache.LawfulRegistry serverAt)
include hc

theorem Engine.registerServer_eq {e : Engine ρ ω} (he : e.cache = cache) {text n : String}
    (hn : Endpoint.normalize text = .ok n) (now : Instant) (st : State ρ ω) :
    e.registerServer now text st =
      (.ok n, { st with cache := (cache.registerServer n now st.cache).2 }) := by
  unfold registerServer
  rw [hn, he]
  simp only [(hc.registers n now st.cache).1]

theorem Engine.registration {e : Engine ρ ω} (he : e.cache = cache) {now : Instant}
    {text n : String} {st : State ρ ω} (h : (e.registerServer now text st).1 = .ok n) :
    e.Registration serverAt now text n st := by
  obtain ⟨n', hn⟩ : ∃ n', Endpoint.normalize text = .ok n' := by
    cases hn : Endpoint.normalize text with
    | error fault =>
      unfold registerServer at h
      rw [hn] at h
      cases h
    | ok n' => exact ⟨n', rfl⟩
  have heq := registerServer_eq hc he hn now st
  obtain rfl : n' = n := by
    rw [heq] at h
    exact Except.ok.inj h
  have hagain := Endpoint.normalize_normalized hn
  have hform := (Endpoint.normalize_eq_ok_iff.1 hn).1
  have hblank : endsWith isBlank n' = true ↔ Endpoint.BlankBeforeSlashes text := by
    rw [hform]
    exact Endpoint.endsWith_isBlank_iff text
  have hservers := (hc.registers n' now st.cache).2
  have hknown : (serverAt (cache.registerServer n' now st.cache).2 n').isSome := by
    rw [hservers, Function.update_self]
    rfl
  refine ⟨(Endpoint.normalize_eq_ok_iff.1 hn).2.startsWith, Endpoint.endsWith_normalized hn, ?_,
    fun later => ?_, hblank, ?_⟩
  · rw [heq]
    exact hservers
  · rw [heq, registerServer_eq hc he hagain]
  · rw [← hblank, Bool.not_eq_true, ← Endpoint.normalize_self_iff hn, heq]
    constructor
    · intro hsame
      have hfirst := congrArg Prod.fst (hsame now)
      rw [registerServer_eq hc he hagain] at hfirst
      rw [hagain]
      exact congrArg Except.ok (Except.ok.inj hfirst)
    · intro hself later
      rw [registerServer_eq hc he hself, hc.known later hknown]

theorem Setup.formsSettle (s : Setup ω) (session : List (Int × Request))
    {st : State ρ (Watched ω)} (hst : ∀ p, serverAt st.cache p = none) :
    FormsSettle session (serverAt (s.run cache session st).cache) := by
  intro p q hp hq hform hne
  let Registered (p : String) : Prop := ∃ reading text,
    (reading, .registerServer text) ∈ session ∧ Endpoint.normalize text = .ok p
  have hrun : Cache.OnlyServers serverAt Registered (s.run cache session st).cache :=
    s.keeps_run (hc.keeps Registered) (fun hmem hn => ⟨_, _, hmem, hn⟩) fun p hp => by
      rw [hst p] at hp
      cases hp
  obtain ⟨reading, text, hmem, hn⟩ := hrun p hp
  obtain ⟨reading', text', hmem', hn'⟩ := hrun q hq
  have hblank := Endpoint.endsWith_isBlank_iff text
  have hblank' := Endpoint.endsWith_isBlank_iff text'
  rw [← (Endpoint.normalize_eq_ok_iff.1 hn).1] at hblank
  rw [← (Endpoint.normalize_eq_ok_iff.1 hn').1] at hblank'
  by_cases hend : endsWith isBlank p = true
  · exact ⟨reading, text, hmem, hblank.1 hend, .inl hn⟩
  by_cases hend' : endsWith isBlank q = true
  · exact ⟨reading', text', hmem', hblank'.1 hend', .inr hn'⟩
  -- Both are their own normal forms, so they would be equal.
  rw [Bool.not_eq_true, ← Endpoint.normalize_self_iff hn] at hend
  rw [Bool.not_eq_true, ← Endpoint.normalize_self_iff hn'] at hend'
  rw [hend, hend'] at hform
  exact absurd (Except.ok.inj hform) hne

end Lawful

/-- **Registrations settle**, over every lawful registry and so over both caches. The endpoint that
comes of a text starts with no blank and ends with no slash, and can be registered again; that gives
the endpoint itself and leaves the registry as it is if and only if the text, apart from the blanks
around it, has no blank before the slashes at its end. In a session, whatever is asked of the engine
and whatever the responder answers, different servers share a normal form only if such a text has
been registered. -/
theorem registrations_settle :
    (∀ {σ : Type} {cache : Cache.Store σ} {serverAt : σ → String → Option ServerEntry},
      cache.LawfulRegistry serverAt → ∀ (repository : Repository ω σ) (limit : Nat) (now : Instant)
      (text n : String) (st : State σ ω), let e : Engine σ ω := ⟨cache, repository, limit⟩
      (e.registerServer now text st).1 = .ok n → e.Registration serverAt now text n st) ∧
    Cache.Memory.store.LawfulRegistry Cache.Memory.serverAt ∧
    Cache.Relational.store.LawfulRegistry Cache.Relational.serverAt ∧
    ∀ (s : Setup ω) (world : ω) (session : List (Int × Request)),
      FormsSettle session
        (s.run Cache.Memory.store session ⟨.empty, ⟨[], world⟩⟩).cache.serverAt ∧
      FormsSettle session
        (s.run Cache.Relational.store session ⟨.empty, ⟨[], world⟩⟩).cache.serverAt :=
  ⟨fun hc _ _ _ _ _ _ h => Engine.registration hc rfl h, Cache.Memory.lawfulRegistry,
    Cache.Relational.lawfulRegistry, fun s _ session =>
      ⟨s.formsSettle Cache.Memory.lawfulRegistry session fun _ => rfl,
        s.formsSettle Cache.Relational.lawfulRegistry session fun _ => rfl⟩⟩

/-- An engine over a cache without a repository. -/
def alone (cache : Cache.Store ρ) : Engine ρ Unit :=
  .withUsualLimit cache { fetch := fun _ _ world st => (.ok none, world, st) }

/-- A text with blanks around it and two slashes at its end is registered without them, and its
endpoint can be registered again and again. -/
theorem registrations_settle_slashes :
    let text := " https://h/a b// "
    let n := "https://h/a b"
    let m := (alone Cache.Memory.store).registerServer 5 text ⟨.empty, ()⟩
    let r := (alone Cache.Relational.store).registerServer 5 text ⟨.empty, ()⟩
    m.1 = .ok n ∧ r.1 = .ok n ∧ Cache.Memory.store.servers m.2.cache = .ok [⟨n, 5, none⟩] ∧
      (∀ later, (alone Cache.Memory.store).registerServer later n m.2 = (.ok n, m.2)) ∧
      ∀ later, (alone Cache.Relational.store).registerServer later n r.2 = (.ok n, r.2) := by
  intro text n m r
  have hm : m.1 = .ok n := by
    unfold m text n
    decide +kernel
  have hr : r.1 = .ok n := by
    unfold r text n
    decide +kernel
  have hend : ¬endsWith isBlank n = true := by
    unfold n
    decide +kernel
  obtain ⟨hsettle, -⟩ := @registrations_settle Unit
  have hmemory := hsettle Cache.Memory.lawfulRegistry _ _ 5 text n _ hm
  have hrelational := hsettle Cache.Relational.lawfulRegistry _ _ 5 text n _ hr
  refine ⟨hm, hr, ?_, hmemory.same_iff.2 (mt hmemory.blank_iff.2 hend),
    hrelational.same_iff.2 (mt hrelational.blank_iff.2 hend)⟩
  unfold m text n
  decide +kernel

/-- **A blank before the slash** stays at the end. The endpoint that it is left on is registered
again as another one, and then the registry has two servers with one normal form. -/
theorem registered_with_blank :
    let m := (alone Cache.Memory.store).registerServer 5 "https://h/p /" ⟨.empty, ()⟩
    let m' := (alone Cache.Memory.store).registerServer 6 "https://h/p " m.2
    m.1 = .ok "https://h/p " ∧ m'.1 = .ok "https://h/p" ∧ m'.2 ≠ m.2 ∧
      m'.2.cache.serverAt "https://h/p " = some ⟨"https://h/p ", 5, none⟩ ∧
      m'.2.cache.serverAt "https://h/p" = some ⟨"https://h/p", 6, none⟩ ∧
      Endpoint.normalize "https://h/p" = Endpoint.normalize "https://h/p " := by
  decide +kernel

end Sync

end PaperIndex
