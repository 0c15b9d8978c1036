import PaperIndex.Citations.Engine
import PaperIndex.Proofs.Atomic

/-! # Requests to the citation engine

A request is one operation of the engine with its arguments. One that fails changes nothing
(`serve_error`). A session is a list of requests, each at its instant; `run` and `replies` are what
becomes of the graph and what the engine answers. -/

namespace PaperIndex.Citations

open Time (Instant)

/-- An operation of the engine. -/
inductive Request
  | register (uri : String)
  | remove (uri : String)
  | submit (citations : List Citation)
  | citing (uri : String) (page : PageRequest)
  | references (uri : String) (page : PageRequest)
  | coCited (uri : String) (threshold : Nat)
  | deleteFor (uri : String)
deriving DecidableEq, Repr

/-- Requests, each at its instant. -/
abbrev Session := List (Instant × Request)

/-- What an operation returns. -/
inductive Reply
  | done
  | removed (found : Bool)
  | outcome (o : BatchOutcome)
  | page (p : Page)
  | coCited (cs : List CoCitation)
  | deleted (n : Nat)
deriving DecidableEq, Repr

namespace Engine

variable {γ : Type}

/-- Serves a request. -/
def serve (e : Engine γ) (now : Instant) : Request → γ → Except IndexError Reply × γ
  | .register uri, st => ((e.register uri st).1.map fun _ => .done, (e.register uri st).2)
  | .remove uri, st => ((e.remove uri st).1.map .removed, (e.remove uri st).2)
  | .submit citations, st =>
    ((e.submit now citations st).1.map .outcome, (e.submit now citations st).2)
  | .citing uri page, st => ((e.citing uri page st).map .page, st)
  | .references uri page, st => ((e.references uri page st).map .page, st)
  | .coCited uri threshold, st => ((e.coCited uri threshold st).map .coCited, st)
  | .deleteFor uri, st => ((e.deleteFor uri st).1.map .deleted, (e.deleteFor uri st).2)

/-- The state after a session. -/
def run (e : Engine γ) : Session → γ → γ
  | [], st => st
  | (now, q) :: session, st => e.run session (e.serve now q st).2

/-- The replies to the requests of a session. -/
def replies (e : Engine γ) : Session → γ → List (Except IndexError Reply)
  | [], _ => []
  | (now, q) :: session, st => (e.serve now q st).1 :: e.replies session (e.serve now q st).2

theorem run_append (e : Engine γ) (session session' : Session) (st : γ) :
    e.run (session ++ session') st = e.run session' (e.run session st) := by
  induction session generalizing st with
  | nil => rfl
  | cons call session ih => exact ih _

theorem replies_append (e : Engine γ) (session session' : Session) (st : γ) :
    e.replies (session ++ session') st =
      e.replies session st ++ e.replies session' (e.run session st) := by
  induction session generalizing st with
  | nil => rfl
  | cons call session ih => exact congrArg (_ :: ·) (ih _)

theorem submit_of_isEmpty {e : Engine γ} {now : Instant} {cs : List Citation} {st : γ}
    (h : (cs.filter isSubmittable).isEmpty = true) :
    e.submit now cs st = (.ok ⟨cs.length, 0, cs.length⟩, st) := by
  unfold submit
  simp only
  rw [if_pos h]

theorem submit_of_merge {e : Engine γ} {now : Instant} {cs : List Citation} {st st' : γ} {n : Nat}
    (h : ¬(cs.filter isSubmittable).isEmpty = true)
    (hmerge : e.graph.merge ⟨now, cs.filter isSubmittable⟩ st = (.ok n, st')) :
    e.submit now cs st = (.ok ⟨cs.length, n, cs.length - n⟩, st') := by
  unfold submit
  simp only [if_neg h, hmerge]

section Atomic
variable {e : Engine γ} (he : e.graph.Atomic) {now : Instant} {st : γ} {err : IndexError}
include he

theorem register_error {uri : String} (h : (e.register uri st).1 = .error err) :
    (e.register uri st).2 = st := by
  unfold register at h ⊢
  by_cases hblank : Text.isBlankText uri = true
  · rw [if_pos hblank]
  · rw [if_neg hblank] at h ⊢
    obtain ⟨cause, hcause, -⟩ := mapError_eq_error_iff.1 h
    exact he.addPaper hcause

theorem remove_error {uri : String} (h : (e.remove uri st).1 = .error err) :
    (e.remove uri st).2 = st := by
  obtain ⟨cause, hcause, -⟩ := mapError_eq_error_iff.1 h
  exact he.removePaper hcause

theorem deleteFor_error {uri : String} (h : (e.deleteFor uri st).1 = .error err) :
    (e.deleteFor uri st).2 = st := by
  obtain ⟨cause, hcause, -⟩ := mapError_eq_error_iff.1 h
  exact he.deleteFor hcause

theorem submit_error {citations : List Citation} (h : (e.submit now citations st).1 = .error err) :
    (e.submit now citations st).2 = st := by
  unfold submit at h ⊢
  simp only at h ⊢
  by_cases hkept : (citations.filter isSubmittable).isEmpty = true
  · rw [if_pos hkept]
  · rw [if_neg hkept] at h ⊢
    simp only at h ⊢
    split at h
    · cases h
    · next cause hcause => exact he.merge hcause

/-- **A request that fails** changes nothing. -/
theorem serve_error {q : Request} (h : (e.serve now q st).1 = .error err) :
    (e.serve now q st).2 = st := by
  cases q with
  | register uri => exact register_error he (map_eq_error_iff.1 h)
  | remove uri => exact remove_error he (map_eq_error_iff.1 h)
  | submit citations => exact submit_error he (map_eq_error_iff.1 h)
  | citing uri page => rfl
  | references uri page => rfl
  | coCited uri threshold => rfl
  | deleteFor uri => exact deleteFor_error he (map_eq_error_iff.1 h)

end Atomic

end Engine

end PaperIndex.Citations
