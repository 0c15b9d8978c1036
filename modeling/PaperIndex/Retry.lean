import PaperIndex.Error

/-! # Retrying

An operation is tried again after a transient failure only, up to a number of retries. Between the
attempts there is a delay that doubles from retry to retry until it reaches its maximum. An attempt
that takes too long fails at its time limit. Time is counted in milliseconds from the start of the
first attempt.

The policy asks a timer for two kinds of waits, the delays and the time limits. The timer is a
parameter; the one at hand ends every wait after thirty years. -/

namespace PaperIndex

/-- When an operation is tried again. -/
structure RetryPolicy where
  maxRetries : Nat
  baseDelay : Nat
  maxDelay : Nat
  /-- The time limit of an attempt in seconds. -/
  limitSeconds : Nat
deriving DecidableEq, Repr

/-- A timer: for how long a wait lasts that is asked of it, in milliseconds. -/
structure Timer where
  wait : Nat → Nat

/-- The timer at hand. It ends every wait after thirty years of 365 days. -/
def Timer.usual : Timer := ⟨fun millis => min millis (30 * 365 * 86400 * 1000)⟩

/-- A stretch of time in milliseconds. -/
structure Duration where
  millis : Nat
deriving DecidableEq, Repr

/-- The time that a wait of the usual timer takes. -/
def Duration.slept (millis : Nat) : Duration := ⟨Timer.usual.wait millis⟩

/-- A number in the place of a duration is what the usual timer is asked for. In a script of
attempts each of them is such a wait. -/
instance : Coe Nat Duration := ⟨.slept⟩

/-- What came of an attempt, and how long it took. -/
structure Attempt (α : Type) where
  outcome : Except IndexError α
  takes : Duration

/-- What came of all attempts, when each began, and when the last one ended. -/
structure RetryRun (α : Type) where
  result : Except IndexError α
  starts : List Nat
  finish : Nat

/-- Whether an outcome is worth another attempt. -/
def isRetryable {α : Type} : Except IndexError α → Bool
  | .ok _ => false
  | .error e => e.isRetryable

namespace RetryPolicy

/-- The delay before a retry; retries are counted from one. -/
def delay (p : RetryPolicy) (retry : Nat) : Nat :=
  min (p.baseDelay * Nat.pow 2 (min (retry - 1) 20)) p.maxDelay

/-- The time limit of an attempt in milliseconds. -/
def limit (p : RetryPolicy) : Nat := p.limitSeconds * 1000

variable {σ α : Type}

/-- The outcome of an attempt within the time limit, as the timer tells it. -/
def outcomeOf (timer : Timer) (p : RetryPolicy) (a : Attempt α) : Except IndexError α :=
  if a.takes.millis ≤ timer.wait p.limit then a.outcome
  else .error (.transient (.timedOut p.limitSeconds))

/-- How long an attempt lasts before it ends or is given up. -/
def lasts (timer : Timer) (p : RetryPolicy) (a : Attempt α) : Nat :=
  min a.takes.millis (timer.wait p.limit)

/-- The attempts from an instant on, with a number of retries left. -/
def runFrom (timer : Timer) (p : RetryPolicy) (attempt : σ → Attempt α × σ) :
    Nat → Nat → σ → RetryRun α × σ
  | 0, start, st =>
    let (a, st) := attempt st
    (⟨p.outcomeOf timer a, [start], start + p.lasts timer a⟩, st)
  | left + 1, start, st =>
    let (a, st) := attempt st
    let outcome := p.outcomeOf timer a
    let finish := start + p.lasts timer a
    if isRetryable outcome then
      let next := finish + timer.wait (p.delay (p.maxRetries - left))
      let (run, st) := p.runFrom timer attempt left next st
      ({ run with starts := start :: run.starts }, st)
    else (⟨outcome, [start], finish⟩, st)

/-- Attempts an operation until there is no reason or no right to another attempt. -/
def run (p : RetryPolicy) (attempt : σ → Attempt α × σ) (st : σ) (timer : Timer := .usual) :
    RetryRun α × σ :=
  p.runFrom timer attempt p.maxRetries 0 st

/-! ### Delays -/

theorem delay_le (p : RetryPolicy) (retry : Nat) : p.delay retry ≤ p.maxDelay :=
  Nat.min_le_right _ _

theorem delay_mono (p : RetryPolicy) {m n : Nat} (h : m ≤ n) : p.delay m ≤ p.delay n := by
  have hexp : min (m - 1) 20 ≤ min (n - 1) 20 := by omega
  have hbase := Nat.mul_le_mul_left p.baseDelay (Nat.pow_le_pow_right (by decide : 0 < 2) hexp)
  exact Nat.le_min.2 ⟨Nat.le_trans (Nat.min_le_left _ _) hbase, Nat.min_le_right _ _⟩

end RetryPolicy

end PaperIndex
