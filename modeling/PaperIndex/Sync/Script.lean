import PaperIndex.Sync.Repository
import PaperIndex.Table

/-! # Scripted repositories

A repository that answers from a script: each URI has a queue of answers, of which the last one
stays. An answer may come with changes of the cache that are made before it is given. URIs without a
queue do not exist. All fetches are noted. -/

namespace PaperIndex.Script

open Time (Instant)

/-- A change of the cache entry of the URI that is being fetched. -/
inductive Interference
  | delete
  /-- Replaces the content identifier, with an empty body. -/
  | edit (cid : String)
deriving DecidableEq, Repr

/-- One answer of the script. -/
structure Answer where
  result : Except FetchError (Option Fetched)
  interference : List Interference

/-- A fetch as it is noted. -/
structure Noted where
  uri : String
  hint : Option String
deriving DecidableEq, Repr

/-- The script, and the fetches since it was last looked at, the newest first. -/
structure State where
  answers : Table String (List Answer)
  noted : List Noted

/-- The script without answers. -/
def State.empty : State := ⟨.empty, []⟩

instance : Inhabited State := ⟨.empty⟩

/-- A queue after its first answer has been used: the last answer stays. -/
def advance {α : Type} : List α → List α
  | _ :: b :: rest => b :: rest
  | rest => rest

/-- Makes a change of the cache. -/
def interfere {ρ : Type} (cache : Cache.Store ρ) (now : Instant) (uri : String) (st : ρ) :
    Interference → ρ
  | .delete => (cache.delete uri st).2
  | .edit cid => (cache.updateContent uri cid "\x7b\x7d" now st).2

/-- The repository that answers from its script. -/
def repository {ρ : Type} (cache : Cache.Store ρ) (now : Instant) : Repository State ρ where
  fetch uri hint script st :=
    let script := { script with noted := ⟨uri, hint⟩ :: script.noted }
    match script.answers.find? uri with
    | some (answer :: rest) =>
      let st := answer.interference.foldl (interfere cache now uri) st
      (answer.result,
        { script with answers := script.answers.insert uri (advance (answer :: rest)) }, st)
    | _ => (.ok none, script, st)

end PaperIndex.Script
