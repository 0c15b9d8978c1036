import PaperIndex.Metrics.Engine
import PaperIndex.Proofs.Atomic

/-! # Requests to the counting engine

A request is one operation of the engine with its arguments. One that fails changes nothing, be it
refused by a check, at some operation of its pipeline or for want of a sink (`serve_error`). A flush
changes nothing but the summaries (`flush_eq`), and what it gives to the sink depends on the reads
of the store only (`flush_same`). -/

namespace PaperIndex.Metrics

/-- An operation of the engine; a single event is a batch of one. -/
inductive Request
  | record (events : List Event)
  | summary (uri : String)
  | viewCount (uri : String)
  | trending (w : Window) (limit : Nat)
  | flush
deriving DecidableEq, Repr

/-- What an operation returns. -/
inductive Reply
  | done
  | summary (s : Summary)
  | count (n : Nat)
  | trends (ts : List Trend)
deriving DecidableEq, Repr

namespace Engine

variable {σ ς : Type}

/-- Serves a request. -/
def serve (e : Engine σ ς) (now : Int) : Request → State σ ς →
    Except IndexError Reply × State σ ς
  | .record events, st =>
    ((e.record now events st).1.map fun _ => .done, (e.record now events st).2)
  | .summary uri, st => ((e.summary now uri st.counters).map .summary, st)
  | .viewCount uri, st => ((e.viewCount now uri st.counters).map .count, st)
  | .trending w limit, st => ((e.trending now w limit st.counters).map .trends, st)
  | .flush, st => ((e.flush now st).1.map .count, (e.flush now st).2)

/-- The state after requests, each at its instant. -/
def served (e : Engine σ ς) (qs : List (Int × Request)) (st : State σ ς) : State σ ς :=
  qs.foldl (fun st q => (e.serve q.1 q.2 st).2) st

/-- **Two states have the same answers** to all questions, they take the same batches, and the sink
has taken the same from both. -/
structure SameAnswers (e : Engine σ ς) (st st' : State σ ς) : Prop where
  summary : ∀ now u, e.summary now u st'.counters = e.summary now u st.counters
  viewCount : ∀ now u, e.viewCount now u st'.counters = e.viewCount now u st.counters
  trending : ∀ now w limit, e.trending now w limit st'.counters = e.trending now w limit st.counters
  flush : ∀ now, (e.flush now st').1 = (e.flush now st).1
  accepts : ∀ now events, (e.record now events st').1.isOk = (e.record now events st).1.isOk
  summaries : st'.summaries = st.summaries

/-- **Two states cannot be told apart** by anything that is requested later. -/
def Indistinct (e : Engine σ ς) (st st' : State σ ς) : Prop :=
  ∀ qs, e.SameAnswers (e.served qs st) (e.served qs st')

variable {e : Engine σ ς} {now : Int} {st : State σ ς} {err : IndexError}

theorem record_error (he : e.counters.Atomic) {events : List Event}
    (h : (e.record now events st).1 = .error err) : (e.record now events st).2 = st := by
  unfold record at h ⊢
  by_cases hempty : events.isEmpty = true
  · rw [if_pos hempty]
  rw [if_neg hempty] at h ⊢
  cases hcheck : checkBatch events with
  | error fault => rfl
  | ok u =>
    simp only [hcheck] at h ⊢
    split at h
    · cases h
    · next cause hcause => rw [he hcause]

/-- A flush fails before the first summary is given to the sink, or not at all. -/
theorem flush_error (h : (e.flush now st).1 = .error err) : (e.flush now st).2 = st := by
  unfold flush at h ⊢
  split at h
  · rfl
  · split at h
    · rfl
    · cases h

/-- **A request that fails** changes nothing. -/
theorem serve_error (he : e.counters.Atomic) {q : Request}
    (h : (e.serve now q st).1 = .error err) : (e.serve now q st).2 = st := by
  cases q with
  | record events => exact record_error he (map_eq_error_iff.1 h)
  | summary uri => rfl
  | viewCount uri => rfl
  | trending w limit => rfl
  | flush => exact flush_error (map_eq_error_iff.1 h)

/-! ### Flushes -/

theorem flushOne_eq (sink : Sink ς) (uri : String) : (e.flushOne sink now st uri).2 =
    ⟨st.counters, (e.flushOne sink now st uri).2.summaries, st.fresh⟩ := by
  unfold flushOne
  cases e.summary now uri st.counters <;> rfl

theorem flushAll_eq (sink : Sink ς) (uris : List String) : (e.flushAll sink now uris st).2 =
    ⟨st.counters, (e.flushAll sink now uris st).2.summaries, st.fresh⟩ := by
  induction uris generalizing st with
  | nil => rfl
  | cons uri uris ih =>
    unfold flushAll
    dsimp only
    rw [ih, flushOne_eq]

/-- **A flush** changes nothing but the summaries. -/
theorem flush_eq (now : Int) (st : State σ ς) :
    (e.flush now st).2 = ⟨st.counters, (e.flush now st).2.summaries, st.fresh⟩ := by
  unfold flush
  split
  · rfl
  · split
    · rfl
    · exact flushAll_eq _ _

/-! ### Reads -/

/-- Two states of a store have the same answers and the same keys. -/
structure SameReads (e : Engine σ ς) (c c' : σ) : Prop where
  read : ∀ qs now, e.counters.read qs now c' = e.counters.read qs now c
  scan : ∀ lead now, e.counters.scan lead now c' = e.counters.scan lead now c

namespace SameReads

variable {c c' : σ} (h : e.SameReads c c')
include h

theorem summary (now : Int) (u : String) : e.summary now u c' = e.summary now u c := by
  unfold Engine.summary
  simp only [h.read]

theorem viewCount (now : Int) (u : String) : e.viewCount now u c' = e.viewCount now u c := by
  unfold Engine.viewCount
  simp only [h.read]

theorem trending (now : Int) (w : Window) (limit : Nat) :
    e.trending now w limit c' = e.trending now w limit c := by
  unfold Engine.trending
  simp only [h.read, h.scan]

theorem subjects (now : Int) : e.subjects now c' = e.subjects now c := by
  unfold Engine.subjects
  simp only [h.scan]

end SameReads

section Flush
variable {st' : State σ ς} (h : e.SameReads st.counters st'.counters)
  (hsummaries : st'.summaries = st.summaries)
include h hsummaries

theorem flushOne_same (sink : Sink ς) (now : Int) (uri : String) :
    (e.flushOne sink now st' uri).1 = (e.flushOne sink now st uri).1 ∧
      (e.flushOne sink now st' uri).2.summaries = (e.flushOne sink now st uri).2.summaries := by
  unfold flushOne
  rw [h.summary, hsummaries]
  cases e.summary now uri st.counters with
  | error err => exact ⟨rfl, hsummaries⟩
  | ok s => exact ⟨rfl, rfl⟩

theorem flushAll_same (sink : Sink ς) (now : Int) (uris : List String) :
    (e.flushAll sink now uris st').1 = (e.flushAll sink now uris st).1 ∧
      (e.flushAll sink now uris st').2.summaries = (e.flushAll sink now uris st).2.summaries := by
  induction uris generalizing st st' with
  | nil => exact ⟨rfl, hsummaries⟩
  | cons uri uris ih =>
    obtain ⟨htaken, hkept⟩ := flushOne_same h hsummaries sink now uri
    unfold flushAll
    dsimp only
    rw [htaken]
    have hcounters : ∀ st : State σ ς, (e.flushOne sink now st uri).2.counters = st.counters :=
      fun st => by rw [flushOne_eq]
    obtain ⟨hcount, hrest⟩ := ih (by rwa [hcounters, hcounters]) hkept
    exact ⟨by rw [hcount], hrest⟩

/-- A flush gives the same to the sink in both states. -/
theorem flush_same (now : Int) : (e.flush now st').1 = (e.flush now st).1 ∧
    (e.flush now st').2.summaries = (e.flush now st).2.summaries := by
  unfold flush
  cases e.sink with
  | none => exact ⟨rfl, hsummaries⟩
  | some sink =>
    simp only [h.subjects]
    cases e.subjects now st.counters with
    | error err => exact ⟨rfl, hsummaries⟩
    | ok uris =>
      obtain ⟨hcount, hkept⟩ := flushAll_same h hsummaries sink now uris
      exact ⟨congrArg Except.ok hcount, hkept⟩

end Flush

end Engine

end PaperIndex.Metrics
