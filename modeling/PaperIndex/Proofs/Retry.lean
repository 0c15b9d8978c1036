import Mathlib.Algebra.Group.Nat.Defs
import Mathlib.Order.Bounds.Basic
import PaperIndex.Retry
import PaperIndex.Word

/-! # The schedule of the attempts

An operation is given by what each of its attempts would do, a timer by how long its waits last.
What a run makes of them can be said without the run: what an attempt comes to (`comesTo`), which
one is the last (`IsLast`), how long the pause after it is (`pause`) and when it begins (`begins`).
`run_schedule` says that the run is this schedule for every timer, policy and operation, and that
the delays may be computed in machine words, where neither the number of a retry nor the factor
overflows (`wordDelay_eq`). Only the time limit and the pauses are waits of the timer; an attempt
takes the time that it takes. -/

namespace PaperIndex

/-- **What is relied on in a timer**: a wait lasts as long as is asked, except that the longer ones
may be cut short, and a longer one is never over before a shorter one. -/
structure Timer.ExactUpTo (timer : Timer) (longest : Nat) : Prop where
  exact : ∀ millis ≤ longest, timer.wait millis = millis
  le : ∀ millis, timer.wait millis ≤ millis
  mono : Monotone timer.wait

theorem Timer.exactUpTo_usual : Timer.usual.ExactUpTo (30 * 365 * 86400 * 1000) where
  exact _ h := Nat.min_eq_left h
  le _ := Nat.min_le_left _ _
  mono _ _ h := Nat.le_min.2 ⟨(Nat.min_le_left _ _).trans h, Nat.min_le_right _ _⟩

/-- An outcome that another attempt may change. -/
def IsTransient {α : Type} (r : Except IndexError α) : Prop :=
  ∃ cause, r = .error (.transient cause)

theorem isRetryable_iff_isTransient {α : Type} {r : Except IndexError α} :
    isRetryable r = true ↔ IsTransient r := by
  cases r with
  | ok a => simp [isRetryable, IsTransient]
  | error e => simpa [isRetryable, IsTransient] using IndexError.isRetryable_iff

namespace RetryPolicy

/-! ### Delays in machine words -/

section Words

/-- The greatest duration in whole milliseconds; its seconds are a word of 64 bits. -/
def greatestDuration : Nat := Word.greatest 64 * 1000 + 999

/-- The delay before a retry in machine words: the number of the retry and the factor are words of
32 bits, and a product that is too large becomes the greatest duration. -/
def wordDelay (p : RetryPolicy) (retry : UInt32) : Nat :=
  let doublings := min (if retry = 0 then 0 else retry - 1) 20
  min (min (p.baseDelay * ((1 : UInt32) <<< doublings).toNat) greatestDuration) p.maxDelay

theorem toNat_min (m n : UInt32) : (min m n).toNat = min m.toNat n.toNat := by
  change (if m ≤ n then m else n).toNat = _
  rw [min_def]
  by_cases hle : m ≤ n
  · rw [if_pos hle, if_pos (UInt32.le_iff_toNat_le.1 hle)]
  · rw [if_neg hle, if_neg fun h => hle (UInt32.le_iff_toNat_le.2 h)]

theorem toNat_saturating_pred (n : UInt32) :
    (if n = 0 then 0 else n - 1).toNat = n.toNat - 1 := by
  by_cases hn : n = 0
  · rw [if_pos hn, hn]
    rfl
  · have hpos : (1 : UInt32) ≤ n := by
      rw [← UInt32.toNat_inj] at hn
      exact UInt32.le_iff_toNat_le.2 (Nat.one_le_iff_ne_zero.2 hn)
    rw [if_neg hn, UInt32.toNat_sub_of_le _ _ hpos]
    rfl

theorem toNat_one_shiftLeft {n : UInt32} (h : n.toNat ≤ 20) :
    ((1 : UInt32) <<< n).toNat = 2 ^ n.toNat := by
  have hpow : 2 ^ n.toNat ≤ 2 ^ 20 := Nat.pow_le_pow_right (by decide) h
  rw [UInt32.toNat_shiftLeft, Nat.mod_eq_of_lt (by omega : n.toNat < 32), Nat.shiftLeft_eq,
    show (1 : UInt32).toNat = 1 by decide, Nat.one_mul, Nat.mod_eq_of_lt (by omega)]

/-- **In machine words** the delay is the same: the factor has at most 21 bits, and a product that
is cut off is beyond the greatest delay anyway. -/
theorem wordDelay_eq {p : RetryPolicy} (hmax : p.maxDelay < 2 ^ 64) {retry : Nat}
    (hretry : retry < 2 ^ 32) : p.wordDelay (UInt32.ofNat retry) = p.delay retry := by
  have hdoublings : (min (if UInt32.ofNat retry = 0 then 0 else UInt32.ofNat retry - 1) 20).toNat =
      min (retry - 1) 20 := by
    rw [toNat_min, toNat_saturating_pred, UInt32.toNat_ofNat_of_lt' hretry]
    rfl
  have hgreatest : p.maxDelay ≤ greatestDuration := by
    have hword : Word.greatest 64 = 2 ^ 64 - 1 := rfl
    unfold greatestDuration
    omega
  change min (min (p.baseDelay * ((1 : UInt32) <<< _).toNat) greatestDuration) p.maxDelay = _
  rw [toNat_one_shiftLeft (by omega), hdoublings, min_assoc, min_eq_right hgreatest]
  rfl

end Words

/-! ### What is expected of a run -/

variable {α : Type} (timer : Timer) (p : RetryPolicy) (attempts : Nat → Attempt α)

/-- The operation whose attempts are these, numbered from zero. Its state is the number of the next
attempt. -/
def numbered (k : Nat) : Attempt α × Nat := (attempts k, k + 1)

/-- What an attempt comes to. -/
def comesTo (k : Nat) : Except IndexError α := p.outcomeOf timer (attempts k)

/-- The delay after an attempt, which doubles up to its maximum. -/
def backoff (p : RetryPolicy) (k : Nat) : Nat := min (p.baseDelay * 2 ^ min k 20) p.maxDelay

/-- The wait after an attempt. -/
def pause (k : Nat) : Nat := timer.wait (p.backoff k)

/-- When an attempt begins. -/
def begins : Nat → Nat
  | 0 => 0
  | k + 1 => begins k + p.lasts timer (attempts k) + p.pause timer k

/-- The last attempt is the first that is worth no other one, unless the retries end before. -/
def IsLast (n : Nat) : Prop :=
  IsLeast {k | k = p.maxRetries ∨ ¬IsTransient (p.comesTo timer attempts k)} n

theorem delay_succ (k : Nat) : p.delay (k + 1) = p.backoff k := by
  rw [delay, backoff, Nat.add_sub_cancel]
  rfl

theorem backoff_le (k : Nat) : p.backoff k ≤ p.maxDelay := p.delay_succ k ▸ p.delay_le (k + 1)

theorem backoff_mono : Monotone p.backoff := by
  intro i j h
  rw [← delay_succ, ← delay_succ]
  exact p.delay_mono (Nat.succ_le_succ h)

variable {timer p attempts}

theorem IsLast.isTransient {n k : Nat} (h : p.IsLast timer attempts n) (hk : k < n) :
    IsTransient (p.comesTo timer attempts k) := by
  by_contra hfinal
  exact absurd (h.2 (Or.inr hfinal)) (Nat.not_le.2 hk)

theorem IsLast.le {n : Nat} (h : p.IsLast timer attempts n) : n ≤ p.maxRetries := h.2 (Or.inl rfl)

/-! ### The run -/

/-- A run that makes the attempts from `k` to `n`. -/
structure Covers (timer : Timer) (p : RetryPolicy) (attempts : Nat → Attempt α) (k n : Nat)
    (x : RetryRun α × Nat) : Prop where
  next : x.2 = n + 1
  result : x.1.result = p.comesTo timer attempts n
  starts : x.1.starts = (List.range' k (n + 1 - k)).map (p.begins timer attempts)
  finish : x.1.finish = p.begins timer attempts n + p.lasts timer (attempts n)

/-- The last attempt ends the run. -/
theorem covers_last {left k : Nat} (h : left = 0 ∨ ¬IsTransient (p.comesTo timer attempts k)) :
    Covers timer p attempts k k
      (p.runFrom timer (numbered attempts) left (p.begins timer attempts k) k) := by
  have hrun : p.runFrom timer (numbered attempts) left (p.begins timer attempts k) k =
      (⟨p.outcomeOf timer (attempts k), [p.begins timer attempts k],
        p.begins timer attempts k + p.lasts timer (attempts k)⟩, k + 1) := by
    cases left with
    | zero => rfl
    | succ left =>
      have hfinal : ¬isRetryable (p.outcomeOf timer (attempts k)) = true := fun hretry =>
        (h.resolve_left (Nat.succ_ne_zero left)) (isRetryable_iff_isTransient.1 hretry)
      exact if_neg hfinal
  rw [hrun]
  refine ⟨rfl, rfl, ?_, rfl⟩
  rw [Nat.add_sub_cancel_left]
  rfl

/-- A transient attempt with retries left is followed by the next one, after the pause. -/
theorem runFrom_of_isTransient {left k : Nat} (hleft : k + (left + 1) = p.maxRetries)
    (h : IsTransient (p.comesTo timer attempts k)) :
    let x := p.runFrom timer (numbered attempts) left (p.begins timer attempts (k + 1)) (k + 1)
    p.runFrom timer (numbered attempts) (left + 1) (p.begins timer attempts k) k =
      ({ x.1 with starts := p.begins timer attempts k :: x.1.starts }, x.2) := by
  have hretry : isRetryable (p.outcomeOf timer (attempts k)) = true :=
    isRetryable_iff_isTransient.2 h
  have hbegins : p.begins timer attempts (k + 1) =
      p.begins timer attempts k + p.lasts timer (attempts k) +
        timer.wait (p.delay (p.maxRetries - left)) := by
    rw [show p.maxRetries - left = k + 1 by omega, delay_succ]
    rfl
  intro x
  rw [show x = _ from congrArg (p.runFrom timer (numbered attempts) left · (k + 1)) hbegins]
  exact if_pos hretry

theorem Covers.cons {k n : Nat} {x : RetryRun α × Nat} (h : Covers timer p attempts (k + 1) n x)
    (hle : k ≤ n) :
    Covers timer p attempts k n
      ({ x.1 with starts := p.begins timer attempts k :: x.1.starts }, x.2) := by
  refine ⟨h.next, h.result, ?_, h.finish⟩
  change p.begins timer attempts k :: x.1.starts = _
  rw [h.starts, Nat.add_sub_add_right, Nat.succ_sub hle, List.range'_succ, List.map_cons]

/-- **The rest of a run** from any of its attempts on goes to the last one. -/
theorem exists_covers {left k : Nat} (hleft : k + left = p.maxRetries) :
    ∃ n, IsLeast {i | k ≤ i ∧ (i = p.maxRetries ∨ ¬IsTransient (p.comesTo timer attempts i))} n ∧
      Covers timer p attempts k n
        (p.runFrom timer (numbered attempts) left (p.begins timer attempts k) k) := by
  induction left generalizing k with
  | zero => exact ⟨k, ⟨⟨le_rfl, .inl hleft⟩, fun _ h => h.1⟩, covers_last (.inl rfl)⟩
  | succ left ih =>
    by_cases htransient : IsTransient (p.comesTo timer attempts k)
    · obtain ⟨n, ⟨⟨hle, hlast⟩, hleast⟩, hcovers⟩ := ih (k := k + 1) (by omega)
      refine ⟨n, ⟨⟨by omega, hlast⟩, ?_⟩, ?_⟩
      · rintro i ⟨hki, hi⟩
        -- The attempt `k` itself is not the last: it is transient, and a retry is left.
        have hne : k ≠ i := by
          rintro rfl
          exact hi.elim (fun hmax => by omega) fun hfinal => hfinal htransient
        exact hleast ⟨Nat.lt_of_le_of_ne hki hne, hi⟩
      · rw [runFrom_of_isTransient hleft htransient]
        exact hcovers.cons (by omega)
    · exact ⟨k, ⟨⟨le_rfl, .inr htransient⟩, fun _ h => h.1⟩, covers_last (.inr htransient)⟩

/-- **Every run** makes the attempts from the first to the last one. -/
theorem exists_isLast_covers (timer : Timer) (p : RetryPolicy) (attempts : Nat → Attempt α) :
    ∃ n, p.IsLast timer attempts n ∧
      Covers timer p attempts 0 n (p.run (numbered attempts) 0 timer) := by
  obtain ⟨n, ⟨⟨_, hlast⟩, hleast⟩, hcovers⟩ :=
    @exists_covers α timer p attempts p.maxRetries 0 (Nat.zero_add p.maxRetries)
  exact ⟨n, ⟨hlast, fun i hi => hleast ⟨i.zero_le, hi⟩⟩, hcovers⟩

/-! ### Timers -/

section Timers
variable {longest : Nat} (htimer : timer.ExactUpTo longest)
include htimer

theorem pause_mono (p : RetryPolicy) : Monotone (p.pause timer) := htimer.mono.comp p.backoff_mono

theorem pause_le (p : RetryPolicy) (k : Nat) : p.pause timer k ≤ p.maxDelay :=
  (htimer.le _).trans (p.backoff_le k)

/-- Where the timer is exact, the waits of a policy are what they are asked for. -/
theorem begins_of_exact (hlimit : p.limit ≤ longest) (hmax : p.maxDelay ≤ longest) (k : Nat) :
    p.begins timer attempts (k + 1) =
      p.begins timer attempts k + min (attempts k).takes.millis p.limit + p.backoff k := by
  rw [begins, lasts, pause, htimer.exact _ hlimit,
    htimer.exact _ ((p.backoff_le k).trans hmax)]

theorem comesTo_of_exact (hlimit : p.limit ≤ longest) (k : Nat) :
    p.comesTo timer attempts k =
      if (attempts k).takes.millis ≤ p.limit then (attempts k).outcome
      else .error (.transient (.timedOut p.limitSeconds)) := by
  rw [comesTo, outcomeOf, htimer.exact _ hlimit]

end Timers

/-- **The schedule** of a run, for every timer that is exact up to a longest wait: it ends with the
first attempt that is worth no other one or when no retry is left, an attempt that takes longer than
the limit is given up then, and the pauses double up to their maximum. If the limit and the greatest
delay are no longer than the longest wait, both are what the policy says. In machine words nothing
of this overflows. -/
theorem run_schedule {timer : Timer} {longest : Nat} (htimer : timer.ExactUpTo longest)
    (p : RetryPolicy) (hretries : p.maxRetries < 2 ^ 32) (hmax : p.maxDelay < 2 ^ 64)
    (attempts : Nat → Attempt α) :
    (∃ n, p.IsLast timer attempts n ∧
      let x := p.run (numbered attempts) 0 timer
      x.2 = n + 1 ∧ x.1.result = p.comesTo timer attempts n ∧
        x.1.starts = (List.range (n + 1)).map (p.begins timer attempts) ∧
        x.1.finish = p.begins timer attempts n + p.lasts timer (attempts n) ∧
        ∀ k < n, IsTransient (p.comesTo timer attempts k) ∧ k + 1 < 2 ^ 32 ∧
          p.wordDelay (UInt32.ofNat (k + 1)) = p.backoff k) ∧
      Monotone (p.pause timer) ∧ (∀ k, p.pause timer k ≤ p.maxDelay) ∧
      (p.limit ≤ longest → p.maxDelay ≤ longest → ∀ k,
        p.comesTo timer attempts k =
            (if (attempts k).takes.millis ≤ p.limit then (attempts k).outcome
            else .error (.transient (.timedOut p.limitSeconds))) ∧
          p.begins timer attempts (k + 1) = p.begins timer attempts k +
            min (attempts k).takes.millis p.limit + p.backoff k) := by
  obtain ⟨n, hlast, hcovers⟩ := exists_isLast_covers timer p attempts
  refine ⟨⟨n, hlast, hcovers.next, hcovers.result, ?_, hcovers.finish, fun k hk => ?_⟩,
    p.pause_mono htimer, p.pause_le htimer, fun hlimit hdelay k =>
      ⟨comesTo_of_exact htimer hlimit k, begins_of_exact htimer hlimit hdelay k⟩⟩
  · rw [hcovers.starts, List.range_eq_range', Nat.sub_zero]
  · have hword : k + 1 < 2 ^ 32 := Nat.lt_of_le_of_lt hk (hlast.le.trans_lt hretries)
    exact ⟨hlast.isTransient hk, hword, (wordDelay_eq hmax hword).trans (p.delay_succ k)⟩

/-- A failure, an attempt beyond the limit of a second, and a failure of another kind, which is the
result although a retry is left. -/
theorem run_schedule_timed_out :
    let p : RetryPolicy := ⟨3, 5, 12, 1⟩
    let attempts (k : Nat) : Attempt String :=
      if k = 0 then ⟨.error (.transient (.stated "down")), ⟨10⟩⟩
      else if k = 1 then ⟨.ok "late", ⟨2000⟩⟩ else ⟨.error (.notFound "u"), ⟨0⟩⟩
    let run := (p.run (numbered attempts) 0).1
    Timer.usual.ExactUpTo (30 * 365 * 86400 * 1000) ∧ p.maxRetries < 2 ^ 32 ∧
      p.maxDelay < 2 ^ 64 ∧ p.IsLast .usual attempts 2 ∧
      p.comesTo .usual attempts 1 = .error (.transient (.timedOut 1)) ∧
      run.result = .error (.notFound "u") ∧ run.starts = [0, 15, 1025] := by
  intro p attempts run
  obtain ⟨⟨n, hlast, hnext, hresult, -⟩, -, -, hshort⟩ :=
    run_schedule Timer.exactUpTo_usual p (by decide) (by decide) attempts
  have hthree : (p.run (numbered attempts) 0).2 = 3 := by decide +kernel
  obtain rfl : n = 2 := Nat.succ_injective (hnext.symm.trans hthree)
  have hone := (hshort (by decide) (by decide) 1).1
  have htwo := (hshort (by decide) (by decide) 2).1
  refine ⟨Timer.exactUpTo_usual, by decide, by decide, hlast, ?_, ?_, by decide +kernel⟩
  · rw [hone]
    simp [p, attempts, limit]
  · rw [hresult, htwo]
    simp [p, attempts]

/-- **A delay beyond the longest wait** is cut: the usual timer lets the second attempt begin a
millisecond earlier than the policy says. -/
theorem run_long_waits :
    let p : RetryPolicy := ⟨1, 946080000001, 946080000001, 3⟩
    let attempts (k : Nat) : Attempt String :=
      if k = 0 then ⟨.error (.transient (.stated "t")), ⟨0⟩⟩ else ⟨.ok "o", ⟨7⟩⟩
    let run := (p.run (numbered attempts) 0).1
    run.starts = [0, 946080000000] ∧ run.finish = 946080000007 ∧
      run.result.toOption = some "o" ∧
      run.starts ≠ [0, 0 + min (attempts 0).takes.millis p.limit +
        min (p.baseDelay * 2 ^ min 0 20) p.maxDelay] := by
  decide +kernel

end RetryPolicy

end PaperIndex
