import PaperIndex.Cache.Basic
import PaperIndex.Json.Basic

/-! # Repositories

A repository answers with the authoritative state of a record. A fetch makes one attempt. It may
change the world, and the cache as well: something else may write to the cache while the fetch is
under way. -/

namespace PaperIndex

/-- The authoritative state of a record. -/
structure Fetched where
  uri : String
  cid : String
  value : Json
  /-- The server that answered. -/
  endpoint : String
deriving Repr

/-- Where authoritative records come from, in a world with states `ω` and beside a cache with states
`ρ`. -/
structure Repository (ω ρ : Type) where
  /-- Fetches the record of a URI, perhaps from a hinted server. The answer is `none` if the record
  does not exist. -/
  fetch : String → Option String → ω → ρ → Except FetchError (Option Fetched) × ω × ρ
  /-- How long a fetch takes until it is answered, in milliseconds. -/
  latency : String → Option String → ω → Nat := fun _ _ _ => 0

namespace Repository

/-- Whether fetches leave the cache alone. -/
def Discreet {ω ρ : Type} (r : Repository ω ρ) : Prop :=
  ∀ uri hint world cache, (r.fetch uri hint world cache).2.2 = cache

end Repository

end PaperIndex
