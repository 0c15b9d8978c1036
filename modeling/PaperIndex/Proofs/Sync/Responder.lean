import PaperIndex.Sync.Engine
import PaperIndex.Sync.Script

/-! # Responders

A responder is whatever stands behind the fetches of an engine: it answers each of them out of a
state of its own, and may have records of the cache deleted or rewritten before it answers. The
repository of a responder notes all fetches. Scripts are responders (`fetch_script`).

A setup puts an engine together for any cache, some of whose calls may have been made to fail. -/

namespace PaperIndex.Sync

open Time (Instant)
open Script (Noted)

/-- A change of the cache that is made while a fetch is under way. -/
inductive Edit
  | delete (uri : String)
  | rewrite (uri cid body : String)
deriving DecidableEq, Repr

/-- Makes the change. -/
def Edit.apply {ρ : Type} (cache : Cache.Store ρ) (now : Instant) (st : ρ) : Edit → ρ
  | .delete uri => (cache.delete uri st).2
  | .rewrite uri cid body => (cache.updateContent uri cid body now st).2

/-- The answer to a fetch, and the changes that come before it. -/
structure Response where
  result : Except FetchError (Option Fetched)
  edits : List Edit

/-- **A responder** with states `ω`. -/
structure Responder (ω : Type) where
  /-- Answers the fetch of a URI with a hint. -/
  respond : Instant → String → Option String → ω → Response × ω

/-- The state of a responder, and the fetches that it has answered in their order. -/
structure Watched (ω : Type) where
  fetches : List Noted
  inner : ω

variable {ρ ω : Type}

/-- The repository of a responder. Unless it is said what the clock reads at the fetches, it stands
still. -/
def Responder.repository (r : Responder ω) (cache : Cache.Store ρ) (now : Instant)
    (fetching : Nat → Instant := fun _ => now) : Repository (Watched ω) ρ where
  fetch uri hint world st :=
    let now := fetching world.fetches.length
    let (response, inner) := r.respond now uri hint world.inner
    (response.result, ⟨world.fetches ++ [⟨uri, hint⟩], inner⟩,
      response.edits.foldl (Edit.apply cache now) st)

/-- The change of the entry that is being fetched. -/
def Edit.ofInterference (uri : String) : Script.Interference → Edit
  | .delete => .delete uri
  | .edit cid => .rewrite uri cid "\x7b\x7d"

/-- The responder that answers from a script. -/
def Responder.script : Responder Script.State where
  respond _ uri hint script :=
    let script := { script with noted := ⟨uri, hint⟩ :: script.noted }
    match script.answers.find? uri with
    | some (answer :: rest) =>
      (⟨answer.result, answer.interference.map (Edit.ofInterference uri)⟩,
        { script with
          answers := script.answers.insert uri (Script.advance (answer :: rest)) })
    | _ => (⟨.ok none, []⟩, script)

/-- **A scripted repository** is that of the responder for the script. -/
theorem fetch_script (cache : Cache.Store ρ) (now : Instant) (uri : String) (hint : Option String)
    (world : Watched Script.State) (st : ρ) :
    let (answer, watched, st') := (Responder.script.repository cache now).fetch uri hint world st
    (Script.repository cache now).fetch uri hint world.inner st = (answer, watched.inner, st') := by
  unfold Responder.repository Responder.script Script.repository
  rcases hqueue : world.inner.answers.find? uri with _ | _ | ⟨answer, rest⟩
  · simp only [hqueue]
    rfl
  · simp only [hqueue]
    rfl
  · have hedit : (fun st i => Edit.apply cache now st (Edit.ofInterference uri i)) =
        Script.interfere cache now uri := by
      funext st i
      cases i <;> rfl
    simp only [hqueue, List.foldl_map, hedit]

/-- Calls of the cache that fail, a responder, and the limit on scans. -/
structure Setup (ω : Type) where
  failing : List Cache.Call
  responder : Responder ω
  scanLimit : Nat

/-- The engine over a cache at an instant. What the responder changes never fails. -/
def Setup.engine (s : Setup ω) (cache : Cache.Store ρ) (now : Instant)
    (fetching : Nat → Instant := fun _ => now) : Engine ρ (Watched ω) :=
  ⟨cache.failing s.failing, s.responder.repository cache now fetching, s.scanLimit⟩

end PaperIndex.Sync
