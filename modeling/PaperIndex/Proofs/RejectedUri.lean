import Mathlib.Algebra.BigOperators.Intervals
import PaperIndex.Application
import PaperIndex.Cache.Memory
import PaperIndex.Graph.Memory
import PaperIndex.Proofs.Retry
import PaperIndex.Sync.Remote

/-! # A URI that is rejected

Indexing a record begins with a fetch, and the first thing that a fetch does is to read the URI. A
text that is no URI of a record is rejected there, before any server is asked, but like every
failure of a fetch the rejection counts as transient: it is met again at every attempt until no
retry is left (`RetryPolicy.UsesUp`). The records themselves reject the same text as invalid. -/

namespace PaperIndex

open Time (Instant)

variable {ρ ω γ σ α : Type}

/-! ### An operation that goes the same way every time -/

namespace RetryPolicy

/-- Where an attempt leaves everything as it is, all attempts are alike. -/
theorem runFrom_of_fixed (timer : Timer) (p : RetryPolicy) {attempt : σ → Attempt α × σ} {a : Attempt α} {st : σ}
    (h : attempt st = (a, st)) (left start k : Nat) :
    p.runFrom timer attempt left start st =
      ((p.runFrom timer (numbered fun _ => a) left start k).1, st) := by
  induction left generalizing start k with
  | zero => simp only [runFrom, numbered, h]
  | succ left ih =>
    simp only [runFrom, h, ih _ (k + 1)]
    by_cases hretry : isRetryable (p.outcomeOf timer a) = true
    · simp only [numbered, hretry, if_true]
    · simp only [numbered, hretry, if_false, Bool.false_eq_true]

/-- **A run that uses up all retries** in vain, with attempts that take no time: what passes is the
pauses between them. -/
structure UsesUp (p : RetryPolicy) (e : IndexError) (run : RetryRun α) : Prop where
  result : run.result = .error e
  starts : run.starts =
    (List.range (p.maxRetries + 1)).map fun k => ∑ i ∈ Finset.range k, p.pause .usual i
  finish : run.finish = ∑ i ∈ Finset.range p.maxRetries, p.pause .usual i

theorem UsesUp.length_starts {p : RetryPolicy} {e : IndexError} {run : RetryRun α}
    (h : p.UsesUp e run) : run.starts.length = p.maxRetries + 1 := by
  rw [h.starts, List.length_map, List.length_range]

theorem begins_of_takes_zero (p : RetryPolicy) {attempts : Nat → Attempt α}
    (h : ∀ k, (attempts k).takes = ⟨0⟩) (k : Nat) :
    p.begins .usual attempts k = ∑ i ∈ Finset.range k, p.pause .usual i := by
  induction k with
  | zero => rfl
  | succ k ih =>
    rw [begins, ih, lasts, h, Nat.zero_min, Finset.sum_range_succ]
    rfl

/-- **An operation that fails at once**, transiently and the same way every time, uses up all
retries and leaves everything as it is. -/
theorem usesUp_of_fixed (p : RetryPolicy) {attempt : σ → Attempt α × σ} {st : σ}
    {cause : Outage} (h : attempt st = (⟨.error (.transient cause), ⟨0⟩⟩, st)) :
    p.UsesUp (.transient cause) (p.run attempt st).1 ∧ (p.run attempt st).2 = st := by
  let attempts (_ : Nat) : Attempt α := ⟨.error (.transient cause), ⟨0⟩⟩
  have hfails (k : Nat) : p.comesTo .usual attempts k = .error (.transient cause) := by
    rw [comesTo, outcomeOf]
    exact if_pos (Nat.zero_le _)
  have hbegins : ∀ k, p.begins .usual attempts k = _ := p.begins_of_takes_zero fun _ => rfl
  obtain ⟨n, hlast, hcovers⟩ := exists_isLast_covers .usual p attempts
  -- No attempt is final, so only the number of retries ends the run.
  obtain rfl : n = p.maxRetries := hlast.1.resolve_right fun hfinal => hfinal ⟨cause, hfails n⟩
  have hrun : p.run attempt st = ((p.run (numbered attempts) 0).1, st) :=
    p.runFrom_of_fixed .usual h p.maxRetries 0 0
  rw [hrun]
  refine ⟨⟨hcovers.result.trans (hfails _), ?_, ?_⟩, rfl⟩
  · rw [hcovers.starts, List.range_eq_range']
    exact List.map_congr_left fun k _ => hbegins k
  · rw [hcovers.finish, hbegins]
    rfl

end RetryPolicy

/-! ### The rejection -/

namespace Application

/-- A text that is no URI fails every attempt at once, before a server is asked. -/
theorem attempt_of_rejected {a : Application ρ ω γ} {client : Remote.Client}
    {t : Http.Transport ω} (hrepository : a.sync.repository = client.repository t) {uri : String}
    {fault : InputFault} (huri : RecordUri.parse uri = .error fault) (hint : Option String)
    (st : Sync.State ρ ω) :
    a.attempt uri hint st = (⟨.error (.transient (.fetch (.badUri fault))), ⟨0⟩⟩, st) := by
  unfold attempt
  rw [hrepository]
  simp only [Remote.Client.repository, Remote.Client.fetch, huri]
  rfl

end Application

/-- The records reject the text as invalid. -/
theorem Sync.Engine.index_of_rejected (e : Sync.Engine ρ ω) (now : Instant) {uri : String}
    {fault : InputFault} (huri : RecordUri.parse uri = .error fault) (cid endpoint : String)
    (value : Json) (st : Sync.State ρ ω) :
    e.index now uri cid endpoint value st = (.error (.validation fault), st) := by
  unfold Sync.Engine.index
  rw [huri]
  rfl

namespace Application

/-- **A rejected URI is taken for an outage.** Over the client for all servers, whatever the hint,
the policy and the transport: indexing a text that is no URI of a record asks no server and changes
nothing, but it fails with a transient failure after one attempt and then every retry, each after
its pause. So there is a single attempt only where no retry is allowed. The records alone reject
the text as invalid. -/
theorem index_rejected {a : Application ρ ω γ} {client : Remote.Client} {t : Http.Transport ω}
    (hrepository : a.sync.repository = client.repository t) {uri : String} {fault : InputFault}
    (huri : RecordUri.parse uri = .error fault) (now : Instant) (hint : Option String)
    (st : State ρ ω γ) :
    let cause := Outage.fetch (.badUri fault)
    let run := (a.retry.run (a.attempt uri hint) st.records).1
    a.index now uri hint st = (.error (.transient cause), st) ∧
      a.retry.UsesUp (.transient cause) run ∧
      (run.starts.length = 1 ↔ a.retry.maxRetries = 0) ∧
      ∀ cid endpoint value, a.sync.index now uri cid endpoint value st.records =
        (.error (.validation fault), st.records) := by
  intro cause run
  obtain ⟨hrun, hstate⟩ :=
    a.retry.usesUp_of_fixed (attempt_of_rejected hrepository huri hint st.records)
  refine ⟨?_, hrun, ?_, fun cid endpoint value =>
    a.sync.index_of_rejected now huri cid endpoint value st.records⟩
  · unfold index
    simp only [hrun.result, hstate]
    rfl
  · rw [hrun.length_starts]
    omega

/-- An index in memory whose transport counts the requests and reaches nobody. -/
def counting (retry : RetryPolicy) : Application Cache.Memory Nat Graph.Memory where
  sync := .withUsualLimit Cache.Memory.store
    ((Remote.Client.of "https://plc.directory" "index").repository
      ⟨fun _ sent => (none, sent + 1)⟩)
  citations := .withUsualLimits Graph.Memory.store
  retry := retry

/-- With four retries the pauses grow from five to the greatest one, twelve, and nobody is asked. -/
theorem index_rejected_four_retries :
    let a := counting ⟨4, 5, 12, 1⟩
    let cause := Outage.fetch (.badUri (.notRecordUri "not-a-uri"))
    let run := (a.retry.run (a.attempt "not-a-uri" none) ⟨.empty, 0⟩).1
    RecordUri.parse "not-a-uri" = .error (.notRecordUri "not-a-uri") ∧
      a.index 7 "not-a-uri" none ⟨⟨.empty, 0⟩, .empty⟩ =
        (.error (.transient cause), ⟨⟨.empty, 0⟩, .empty⟩) ∧
      a.retry.UsesUp (.transient cause) run ∧ run.starts = [0, 5, 15, 27, 39] := by
  intro a cause run
  have huri : RecordUri.parse "not-a-uri" = .error (.notRecordUri "not-a-uri") := by decide +kernel
  obtain ⟨hindex, hrun, -⟩ :=
    index_rejected (a := a) rfl huri 7 none ⟨⟨.empty, 0⟩, .empty⟩
  exact ⟨huri, hindex, hrun, hrun.starts.trans (by decide)⟩

/-- **A text that is no URI** is attempted four times and fails as if nobody could be reached,
although the records reject it as invalid at once. -/
theorem invalid_uri_transient :
    let a := counting ⟨3, 250, 8000, 15⟩
    let fault := InputFault.notRecordUri "not-a-uri"
    let st : State Cache.Memory Nat Graph.Memory := ⟨⟨.empty, 0⟩, .empty⟩
    RecordUri.parse "not-a-uri" = .error fault ∧
      (a.sync.index 7 "not-a-uri" "c" "p" .null st.records).1 = .error (.validation fault) ∧
      (a.index 7 "not-a-uri" none st).1 = .error (.transient (.fetch (.badUri fault))) ∧
      (a.retry.run (a.attempt "not-a-uri" none) st.records).1.starts = [0, 250, 750, 1750] ∧
      (a.retry.run (a.attempt "not-a-uri" none) st.records).2.world = 0 := by
  have huri : RecordUri.parse "not-a-uri" = .error (.notRecordUri "not-a-uri") := by decide +kernel
  refine ⟨huri, ?_, ?_, ?_, ?_⟩
  · rfl
  · rfl
  · decide +kernel
  · decide +kernel

end Application

end PaperIndex
