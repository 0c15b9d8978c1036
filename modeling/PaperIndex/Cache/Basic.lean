import PaperIndex.Error
import PaperIndex.Time.Calendar

/-! # Record caches

A cache holds one entry per record URI: the content identifier and the body that were last seen, the
server they came from, and when they were last confirmed. Beside the entries it holds the registry
of known servers. Updates report whether there was an entry to update; none of them creates one. -/

namespace PaperIndex

open Time (Instant)

/-- The cache entry of a record. -/
structure IndexedRecord where
  uri : String
  /-- The content identifier as last indexed. -/
  contentHash : String
  endpoint : String
  /-- The name of the kind of the body. -/
  typeName : String
  /-- The text of the body. -/
  body : String
  indexedAt : Instant
deriving DecidableEq, Repr

/-- A registered server. -/
structure ServerEntry where
  endpoint : String
  registeredAt : Instant
  lastSweptAt : Option Instant
deriving DecidableEq, Repr

/-- An entry whose instant is in milliseconds, with the instant in ticks. -/
def IndexedRecord.inTicks (ticks : Nat) (r : IndexedRecord) : IndexedRecord :=
  { r with indexedAt := r.indexedAt * ticks }

/-- A server whose instants are in milliseconds, with the instants in ticks. -/
def ServerEntry.inTicks (ticks : Nat) (s : ServerEntry) : ServerEntry :=
  { s with
    registeredAt := s.registeredAt * ticks
    lastSweptAt := s.lastSweptAt.map (· * (ticks : Int)) }

namespace Cache

/-- What a cache with states `ρ` can do. -/
structure Store (ρ : Type) where
  get : String → ρ → Except StoreError (Option IndexedRecord)
  /-- Creates or replaces an entry. -/
  upsert : IndexedRecord → ρ → Except StoreError Unit × ρ
  /-- Replaces hash, body and instant of the entry of a URI. -/
  updateContent : String → String → String → Instant → ρ → Except StoreError Bool × ρ
  /-- Replaces hash, endpoint and instant of the entry of a URI. -/
  updateSource : String → String → String → Instant → ρ → Except StoreError Bool × ρ
  /-- Sets the instant of an entry that still has the given hash. -/
  touchVerified : String → String → Instant → ρ → Except StoreError Bool × ρ
  delete : String → ρ → Except StoreError Bool × ρ
  /-- The entries confirmed before an instant, oldest first, up to a number. -/
  indexedBefore : Instant → Nat → ρ → Except StoreError (List IndexedRecord)
  /-- Registers a server; a registered one keeps its instant. -/
  registerServer : String → Instant → ρ → Except StoreError Unit × ρ
  /-- The registered servers by endpoint. -/
  servers : ρ → Except StoreError (List ServerEntry)
  /-- Notes a sweep of a server; an unknown one is ignored. -/
  markSwept : String → Instant → ρ → Except StoreError Unit × ρ

/-- A call of a cache. -/
inductive Call
  | get
  | upsert
  | updateContent
  | updateSource
  | touchVerified
  | delete
  | indexedBefore
  | registerServer
  | servers
  | markSwept
deriving DecidableEq, Repr

/-- The name of a call. -/
def Call.name : Call → String
  | .get => "get_record"
  | .upsert => "upsert_record"
  | .updateContent => "update_content"
  | .updateSource => "update_source"
  | .touchVerified => "touch_verified"
  | .delete => "delete_record"
  | .indexedBefore => "records_indexed_before"
  | .registerServer => "register_pds"
  | .servers => "list_pds"
  | .markSwept => "mark_pds_swept"

/-- The cache of which some calls have been made to fail. A failing call changes nothing. -/
def Store.failing {ρ : Type} (calls : List Call) (s : Store ρ) : Store ρ :=
  let ask {α : Type} (c : Call) (f : ρ → Except StoreError α) (st : ρ) : Except StoreError α :=
    if c ∈ calls then .error (.down c.name) else f st
  let act {α : Type} (c : Call) (f : ρ → Except StoreError α × ρ) (st : ρ) :
      Except StoreError α × ρ :=
    if c ∈ calls then (.error (.down c.name), st) else f st
  { get := fun uri => ask .get (s.get uri)
    upsert := fun r => act .upsert (s.upsert r)
    updateContent := fun uri hash body t => act .updateContent (s.updateContent uri hash body t)
    updateSource := fun uri hash pds t => act .updateSource (s.updateSource uri hash pds t)
    touchVerified := fun uri hash t => act .touchVerified (s.touchVerified uri hash t)
    delete := fun uri => act .delete (s.delete uri)
    indexedBefore := fun t n => ask .indexedBefore (s.indexedBefore t n)
    registerServer := fun pds t => act .registerServer (s.registerServer pds t)
    servers := ask .servers s.servers
    markSwept := fun pds t => act .markSwept (s.markSwept pds t) }

/-- The cache that may only be read. -/
def Store.readOnly {ρ : Type} (s : Store ρ) : Store ρ :=
  let refuse {α : Type} (st : ρ) : Except StoreError α × ρ := (.error (.refused .readOnly), st)
  { s with
    upsert := fun _ => refuse
    updateContent := fun _ _ _ _ => refuse
    updateSource := fun _ _ _ _ => refuse
    touchVerified := fun _ _ _ => refuse
    delete := fun _ => refuse
    registerServer := fun _ _ => refuse
    markSwept := fun _ _ => refuse }

/-- The cache that keeps milliseconds, beside a clock of which so many ticks make one: instants are
cut to whole milliseconds on their way in, and come out in ticks. -/
def Store.inMillis {ρ : Type} (s : Store ρ) (ticks : Nat) : Store ρ :=
  let cut := Time.millis ticks
  { get := fun uri st => (s.get uri st).map (Option.map (IndexedRecord.inTicks ticks))
    upsert := fun r => s.upsert { r with indexedAt := cut r.indexedAt }
    updateContent := fun uri hash body t => s.updateContent uri hash body (cut t)
    updateSource := fun uri hash pds t => s.updateSource uri hash pds (cut t)
    touchVerified := fun uri hash t => s.touchVerified uri hash (cut t)
    delete := s.delete
    indexedBefore := fun t n st =>
      (s.indexedBefore (cut t) n st).map (List.map (IndexedRecord.inTicks ticks))
    registerServer := fun pds t => s.registerServer pds (cut t)
    servers := fun st => (s.servers st).map (List.map (ServerEntry.inTicks ticks))
    markSwept := fun pds t => s.markSwept pds (cut t) }

/-- The order of a scan: by instant, then by URI. -/
def scanOrder (a b : IndexedRecord) : Bool :=
  a.indexedAt < b.indexedAt || (a.indexedAt == b.indexedAt && a.uri ≤ b.uri)

end Cache

end PaperIndex
