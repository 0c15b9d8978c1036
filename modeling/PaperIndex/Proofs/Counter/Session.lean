import PaperIndex.Counter.Basic

/-! # Sessions of a counter store

A session is a list of calls of a counter store (`Request`), each at its instant. A store answers
them in turn (`Store.replies`); a call that fails is answered too, and the session goes on
(`Store.run`). -/

namespace PaperIndex.Counter

/-- A call of a counter store. -/
inductive Request
  | exec (p : Pipeline)
  | read (qs : List Query) (now : Int)
  | scan (lead : String) (now : Int)
deriving DecidableEq, Repr

/-- The instant of a call. -/
def Request.instant : Request → Int
  | .exec p => p.now
  | .read _ now => now
  | .scan _ now => now

/-- What a call returns. -/
inductive Reply
  | done
  | answers (ns : List Int)
  | keys (ks : List String)
deriving DecidableEq, Repr

/-- The instants of a session never decrease. -/
def InOrder (session : List Request) : Prop :=
  session.Pairwise fun q q' => q.instant ≤ q'.instant

namespace Store

variable {σ : Type}

/-- Answers a call. -/
def serve (s : Store σ) : Request → σ → Except StoreError Reply × σ
  | .exec p, st => ((s.exec p st).1.map fun _ => .done, (s.exec p st).2)
  | .read qs now, st => ((s.read qs now st).map .answers, st)
  | .scan lead now, st => ((s.scan lead now st).map .keys, st)

/-- The replies to the calls of a session. -/
def replies (s : Store σ) : List Request → σ → List (Except StoreError Reply)
  | [], _ => []
  | q :: session, st => (s.serve q st).1 :: s.replies session (s.serve q st).2

/-- The state after a session. -/
def run (s : Store σ) (session : List Request) (st : σ) : σ :=
  session.foldl (fun st q => (s.serve q st).2) st

/-- No call of a session fails. -/
def Serves (s : Store σ) (session : List Request) (st : σ) : Prop :=
  ∀ reply ∈ s.replies session st, ∃ a, reply = .ok a

theorem serves_cons_iff {s : Store σ} {q : Request} {session : List Request} {st : σ} :
    s.Serves (q :: session) st ↔
      (∃ a, (s.serve q st).1 = .ok a) ∧ s.Serves session (s.serve q st).2 := by
  unfold Serves
  rw [replies, List.forall_mem_cons]

end Store

end PaperIndex.Counter
