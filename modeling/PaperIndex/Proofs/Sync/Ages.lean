import Mathlib.Algebra.Order.Group.Int
import Mathlib.Algebra.Order.Group.Unbundled.Basic
import PaperIndex.Cli.Run
import PaperIndex.Proofs.Sync.Sweep
import PaperIndex.Proofs.Sync.SweepEffect

/-! # The age of a scan

A scan takes its age back from the present, and the calendar has a first date. A negative age is
refused, and one that stays within the calendar is answered (`Engine.stale_cases`). An age that goes
back before the first date selects nothing (`allBefore_nil`), yet a scan does not say so: it stops.
At the command line the age is in seconds and is cut to a word of milliseconds, which is far more
than the calendar is long (`crashed_sweep_iff`). -/

namespace PaperIndex.Sync

open Time (Instant earliest latest)
open PaperIndex.Cache (AllBefore Named)

/-! ### The cutoff -/

/-- The cutoff of an age lies within the calendar unless it lies before it. -/
theorem hasDate_cutoff {now : Instant} (hnow : Time.hasDate now = true) {maxAge : Int}
    (hage : 0 ≤ maxAge) : Time.hasDate (now - maxAge) = true ↔ earliest ≤ now - maxAge := by
  simp only [Time.hasDate, Bool.and_eq_true, decide_eq_true_eq] at hnow ⊢
  have hlatest : now - maxAge ≤ latest := (Int.sub_le_self now hage).trans hnow.2
  exact and_iff_left hlatest

/-- **Nothing is stale** before a cutoff that lies before all dates. -/
theorem allBefore_nil {entries : String → Option IndexedRecord} {cutoff : Instant}
    (hcutoff : cutoff < earliest)
    (hdated : ∀ uri c, entries uri = some c → Time.hasDate c.indexedAt = true) :
    AllBefore entries cutoff [] where
  mem_iff c := by
    refine iff_of_false List.not_mem_nil ?_
    rintro ⟨hentry, hbefore⟩
    have hdate := hdated c.uri c hentry
    simp only [Time.hasDate, Bool.and_eq_true, decide_eq_true_eq] at hdate
    exact (hbefore.trans hcutoff).not_ge hdate.1
  ordered := .nil

namespace Engine

variable {ρ ω : Type}

/-- What a scan does by its age: it refuses it, it stops at a cutoff without a date, or it asks the
cache for what lies before the cutoff. -/
theorem stale_cases (e : Engine ρ ω) {now : Instant} (hnow : Time.hasDate now = true) (maxAge : Int)
    (limit : Nat) (st : State ρ ω) :
    (maxAge < 0 ∧ e.stale now maxAge limit st = .error (.failed (.validation .negativeAge))) ∨
    ((0 ≤ maxAge ∧ now - maxAge < earliest) ∧ e.stale now maxAge limit st = .error .beforeDates) ∨
    ((0 ≤ maxAge ∧ earliest ≤ now - maxAge) ∧ e.stale now maxAge limit st =
      (e.cache.indexedBefore (now - maxAge) limit st.cache).mapError fun err =>
        .failed (storeFailure err)) := by
  rw [stale_eq]
  by_cases hage : maxAge < 0
  · exact .inl ⟨hage, if_pos hage⟩
  · rw [if_neg hage]
    have hdate := hasDate_cutoff hnow (not_lt.1 hage)
    rcases lt_or_ge (now - maxAge) earliest with hcutoff | hcutoff
    · exact .inr (.inl ⟨⟨not_lt.1 hage, hcutoff⟩, if_neg fun h => hcutoff.not_ge (hdate.1 h)⟩)
    · exact .inr (.inr ⟨⟨not_lt.1 hage, hcutoff⟩, if_pos (hdate.2 hcutoff)⟩)

/-- A scan stops for lack of a date just if its cutoff lies before the first one. -/
theorem stale_eq_beforeDates_iff (e : Engine ρ ω) {now : Instant} (hnow : Time.hasDate now = true)
    (maxAge : Int) (limit : Nat) (st : State ρ ω) :
    e.stale now maxAge limit st = .error .beforeDates ↔ 0 ≤ maxAge ∧ now - maxAge < earliest := by
  rcases e.stale_cases hnow maxAge limit st with ⟨hage, h⟩ | ⟨hage, h⟩ | ⟨hage, h⟩
  · rw [h]
    exact iff_of_false nofun fun hcut => hage.not_ge hcut.1
  · exact iff_of_true h hage
  · rw [h]
    refine iff_of_false ?_ fun hcut => hage.2.not_gt hcut.2
    cases e.cache.indexedBefore (now - maxAge) limit st.cache <;> nofun

theorem sweep_of_stop {e : Engine ρ ω} {now : Instant} {maxAge : Int} {limit : Nat}
    {st : State ρ ω} {stop : ScanStop} (h : e.stale now maxAge limit st = .error stop) :
    e.sweep now maxAge limit st = (.error stop, st) := by
  unfold sweep
  rw [h]

/-- A sweep stops where its scan does. -/
theorem fst_sweep_eq_error_iff (e : Engine ρ ω) (now : Instant) (maxAge : Int) (limit : Nat)
    (st : State ρ ω) (stop : ScanStop) :
    (e.sweep now maxAge limit st).1 = .error stop ↔ e.stale now maxAge limit st = .error stop := by
  cases h : e.stale now maxAge limit st with
  | error stop' =>
    rw [sweep_of_stop h]
    exact ⟨fun h => congrArg _ (Except.error.inj h), fun h => congrArg _ (Except.error.inj h)⟩
  | ok cs =>
    rw [sweep_of_stale h]
    exact iff_of_false nofun nofun

/-- **An age at which nothing happens**: detections and sweeps end alike, and sweeps leave
everything as it is. -/
structure StopsAt (e : Engine ρ ω) (now : Instant) (maxAge : Int) (st : State ρ ω)
    (stop : ScanStop) : Prop where
  detect : e.detect now maxAge st = .error stop
  sweep : ∀ limit, e.sweep now maxAge limit st = (.error stop, st)

/-- **Scans by their age**, at an instant and on a state with the given entries. -/
structure ScansByAge (e : Engine ρ ω) (entries : String → Option IndexedRecord) (now : Instant)
    (st : State ρ ω) : Prop where
  negative : ∀ maxAge < 0, e.StopsAt now maxAge st (.failed (.validation .negativeAge))
  /-- Within the calendar the first stale entries are listed, and as many are examined. -/
  within : ∀ maxAge, 0 ≤ maxAge → earliest ≤ now - maxAge →
    ∃ stale, AllBefore entries (now - maxAge) stale ∧
      e.detect now maxAge st = .ok (stale.take e.scanLimit) ∧
      ∀ limit, ∃ report, (e.sweep now maxAge limit st).1 = .ok report ∧
        report.examined = min limit stale.length
  /-- Nothing is stale before the first date, but this is not the answer. -/
  before : ∀ maxAge, 0 ≤ maxAge → now - maxAge < earliest →
    e.StopsAt now maxAge st .beforeDates ∧
      ((∀ uri c, entries uri = some c → Time.hasDate c.indexedAt = true) →
        AllBefore entries (now - maxAge) [])

/-- An age stops detections and sweeps if it stops every scan. -/
theorem StopsAt.of_stale {e : Engine ρ ω} {now : Instant} {maxAge : Int} {st : State ρ ω}
    {stop : ScanStop} (h : ∀ limit, e.stale now maxAge limit st = .error stop) :
    e.StopsAt now maxAge st stop where
  detect := h e.scanLimit
  sweep limit := sweep_of_stop (h limit)

/-- **Scans over a healthy cache** go by their age. -/
theorem scansByAge {e : Engine ρ ω} {entryAt : ρ → String → Option IndexedRecord}
    {serverAt : ρ → String → Option ServerEntry} {Sound : ρ → Prop} {now : Instant}
    (hnow : Time.hasDate now = true) (hc : e.cache.Healthy entryAt serverAt Sound now)
    {st : State ρ ω} (hst : Sound st.cache) (hnamed : Named (entryAt st.cache)) :
    e.ScansByAge (entryAt st.cache) now st where
  negative maxAge hage := .of_stale fun _ => if_pos hage
  within maxAge hage hcutoff := by
    have hdate := (hasDate_cutoff hnow hage).2 hcutoff
    obtain ⟨stale, hall, hscan⟩ := hc.indexedBefore (now - maxAge) hst hnamed
    refine ⟨stale, hall, stale_of_scan hage hdate (hscan e.scanLimit), fun limit => ?_⟩
    rw [sweep_of_stale (stale_of_scan hage hdate (hscan limit))]
    refine ⟨_, rfl, ?_⟩
    exact (e.length_sweepAll now (stale.take limit) st).trans List.length_take
  before maxAge hage hcutoff := by
    have hstop := fun limit => (e.stale_eq_beforeDates_iff hnow maxAge limit st).2 ⟨hage, hcutoff⟩
    exact ⟨.of_stale hstop, allBefore_nil hcutoff⟩

end Engine

/-! ### At the command line -/

section Command
variable {ω : Type} (t : Http.Transport ω) (c : Config) (s : Cli.Stores)

theorem ending_reportSweep (r : Except ScanStop Report) :
    (Cli.reportSweep r).ending = .crashed ↔ r = .error .beforeDates := by
  rcases r with (e | _) | report
  · exact iff_of_false nofun nofun
  · exact iff_of_true rfl rfl
  · exact iff_of_false nofun nofun

/-- The seconds of an age are cut to a word of milliseconds. -/
theorem ageMillis_eq (seconds : Nat) :
    Cli.ageMillis seconds = min ((seconds : Int) * 1000) (Word.greatest 63) := by
  have hword : (Word.greatest 63 : Int) ≤ Word.greatest 64 := by decide
  unfold Cli.ageMillis
  rw [min_assoc, min_eq_right hword]

theorem ageMillis_nonneg (seconds : Nat) : 0 ≤ Cli.ageMillis seconds := by
  rw [ageMillis_eq]
  exact le_min (by omega) (by decide)

/-- An age leads back before the first date if its seconds do, whether or not they are cut. -/
theorem lt_ageMillis_iff {now : Instant} (hnow : Time.hasDate now = true) (seconds : Nat) :
    now - earliest < Cli.ageMillis seconds ↔ now - earliest < (seconds : Int) * 1000 := by
  simp only [Time.hasDate, Bool.and_eq_true, decide_eq_true_eq] at hnow
  have hcalendar : latest - earliest < (Word.greatest 63 : Int) := by decide
  rw [ageMillis_eq, lt_min_iff]
  exact and_iff_left ((sub_le_sub_right hnow.2 earliest).trans_lt hcalendar)

/-- **A sweep at the command line** crashes just if its age is longer than the present is after the
first date. The cut to a word plays no part in this: the calendar is shorter. -/
theorem crashed_sweep_iff (reading : Int) (seed : Nat) (maxAge limit : Option Nat)
    (d : Cli.Desk ω) :
    (Cli.runTask t c s reading seed (.sweep maxAge limit) d).1.ending = .crashed ↔
      Time.told reading - earliest < (maxAge.getD c.staleAfterSeconds : Int) * 1000 := by
  have hnow := Time.hasDate_told reading
  have hsweep : (Cli.runTask t c s reading seed (.sweep maxAge limit) d).1.ending = .crashed ↔
      ((Cli.syncEngine t c s).sweep (Time.told reading)
        (Cli.ageMillis (maxAge.getD c.staleAfterSeconds)) (limit.getD c.sweepLimit)
        d.records).1 = .error .beforeDates := ending_reportSweep _
  rw [hsweep, Engine.fst_sweep_eq_error_iff, Engine.stale_eq_beforeDates_iff _ hnow,
    and_iff_right (ageMillis_nonneg _), sub_lt_comm]
  exact lt_ageMillis_iff hnow _

end Command

variable {ω : Type}

/-- **Scans are total but for the calendar.** Whatever the clock reads: over every cache a detection
or a sweep stops without a result just if its age goes back before the first date; over every
healthy cache, over the cache in memory, and over the relational one, scans go by their age; and a
sweep at the command line crashes just if its age is longer than the present is after the first
date. -/
theorem scans_by_age (reading : Int) :
    (∀ {ρ : Type} (e : Engine ρ ω) (st : State ρ ω) (maxAge : Int),
      (e.detect (Time.told reading) maxAge st = .error .beforeDates ↔
        0 ≤ maxAge ∧ Time.told reading - maxAge < earliest) ∧
      ∀ limit, (e.sweep (Time.told reading) maxAge limit st).1 = .error .beforeDates ↔
        0 ≤ maxAge ∧ Time.told reading - maxAge < earliest) ∧
    (∀ {ρ : Type} (e : Engine ρ ω) {entryAt : ρ → String → Option IndexedRecord}
      {serverAt : ρ → String → Option ServerEntry} {Sound : ρ → Prop},
      e.cache.Healthy entryAt serverAt Sound (Time.told reading) → ∀ st : State ρ ω,
      Sound st.cache → Named (entryAt st.cache) →
      e.ScansByAge (entryAt st.cache) (Time.told reading) st) ∧
    (∀ (repository : Repository ω Cache.Memory) (scanLimit : Nat) (st : State Cache.Memory ω),
      st.cache.Keyed → Engine.ScansByAge ⟨Cache.Memory.store, repository, scanLimit⟩
        st.cache.entryAt (Time.told reading) st) ∧
    (∀ (repository : Repository ω Cache.Relational) (scanLimit : Nat)
      (st : State Cache.Relational ω), st.cache.Dated →
      Engine.ScansByAge ⟨Cache.Relational.store, repository, scanLimit⟩ st.cache.entryAt
        (Time.told reading) st) ∧
    (∀ (t : Http.Transport ω) (c : Config) (s : Cli.Stores) (seed : Nat) (maxAge limit : Option Nat)
      (d : Cli.Desk ω),
      (Cli.runTask t c s reading seed (.sweep maxAge limit) d).1.ending = .crashed ↔
        Time.told reading - earliest < (maxAge.getD c.staleAfterSeconds : Int) * 1000) := by
  have hnow := Time.hasDate_told reading
  refine ⟨fun e st maxAge => ⟨?_, fun limit => ?_⟩, fun e _ _ _ hc st hst hnamed => ?_,
    fun repository scanLimit st hkeyed => ?_, fun repository scanLimit st hdated => ?_,
    fun t c s seed maxAge limit d => ?_⟩
  · exact e.stale_eq_beforeDates_iff hnow maxAge e.scanLimit st
  · rw [e.fst_sweep_eq_error_iff]
    exact e.stale_eq_beforeDates_iff hnow maxAge limit st
  · exact Engine.scansByAge hnow hc hst hnamed
  · exact Engine.scansByAge hnow (Cache.Memory.healthy _) trivial (Cache.Memory.keyed_iff.1 hkeyed)
  · exact Engine.scansByAge hnow (Cache.Relational.healthy hnow) hdated st.cache.named_entryAt
  · exact crashed_sweep_iff t c s reading seed maxAge limit d

/-- Two entries are stale at an age within the calendar, over both caches, and a sweep examines one
of them if it is limited to one. -/
theorem scans_by_age_two :
    let silent (ρ : Type) : Repository Unit ρ := { fetch := fun _ _ w st => (.ok none, w, st) }
    let loaded {ρ : Type} (s : Cache.Store ρ) (st : ρ) : ρ :=
      [("a", 1), ("b", 2), ("c", 90)].foldl (fun st x =>
        (s.upsert ⟨x.1, "c1", "p", "pub.chive.eprint.submission", "", x.2⟩ st).2) st
    let m := loaded Cache.Memory.store .empty
    let r := loaded Cache.Relational.store .empty
    let memory : Engine Cache.Memory Unit := ⟨Cache.Memory.store, silent _, 500⟩
    let relational : Engine Cache.Relational Unit := ⟨Cache.Relational.store, silent _, 500⟩
    let task (age : Nat) := Cli.runTask (Http.unreachable : Http.Transport Unit) .minimal (.of true) 100 0
      (.sweep (some age) none) ⟨.empty, ()⟩
    m.Keyed ∧ r.Dated ∧ memory.ScansByAge m.entryAt 100 ⟨m, ()⟩ ∧
      relational.ScansByAge r.entryAt 100 ⟨r, ()⟩ ∧
      (memory.sweep 100 50 1 ⟨m, ()⟩).1 = .ok ⟨1, 0, 0, 1, 0⟩ ∧
      (∀ st, memory.StopsAt 100 (-1) st (.failed (.validation .negativeAge))) ∧
      ((task 8334601228800).1.ending ≠ .crashed ∧ (task 8334601228801).1.ending = .crashed) := by
  intro silent loaded m r memory relational task
  have hkeyed : m.Keyed := by
    unfold Cache.Memory.Keyed m loaded
    decide +kernel
  have hdated : r.Dated := by
    unfold Cache.Relational.Dated r loaded
    decide +kernel
  let at_ (uri : String) (t : Instant) : IndexedRecord :=
    ⟨uri, "c1", "p", "pub.chive.eprint.submission", "", t⟩
  have hscan : Cache.Memory.store.indexedBefore (100 - 50) 1 m = .ok [at_ "a" 1] := by
    refine @Cache.Memory.indexedBefore_of_perm m (100 - 50) [at_ "a" 1, at_ "b" 2] ?_ ?_ ?_ 1 <;>
      (unfold at_; decide +kernel)
  obtain ⟨-, -, hmemory, hrelational, htask⟩ := @scans_by_age Unit 100
  refine ⟨hkeyed, hdated, hmemory (silent _) 500 ⟨m, ()⟩ hkeyed,
    hrelational (silent _) 500 ⟨r, ()⟩ hdated, ?_, ?_, ?_, ?_⟩
  · rw [Engine.sweep_of_stale (Engine.stale_of_scan (by decide) (by decide) hscan)]
    unfold memory m loaded silent
    decide +kernel
  · exact fun st => .of_stale fun _ => rfl
  · exact (htask _ _ _ 0 _ none _).not.2 (by decide)
  · exact (htask _ _ _ 0 _ none _).2 (by decide)

/-- **An age without a cutoff.** Nothing is as old as the greatest age is long, since no date is
that early, but detections and sweeps do not say so: they stop, and the command crashes. -/
theorem stopped_before_dates :
    let e : Engine Cache.Memory Unit :=
      ⟨Cache.Memory.store, { fetch := fun _ _ w st => (.ok none, w, st) }, 500⟩
    let age := Word.greatest 63
    AllBefore (Cache.Memory.entryAt .empty) (0 - age) [] ∧
      e.detect 0 age ⟨.empty, ()⟩ = .error .beforeDates ∧
      (e.sweep 0 age 3 ⟨.empty, ()⟩).1 = .error .beforeDates ∧
      (Cli.runTask (Http.unreachable : Http.Transport Unit) .minimal (.of true) 0 0
        (.sweep (some (Word.greatest 64)) none) ⟨.empty, ()⟩).1.ending = .crashed := by
  intro e age
  refine ⟨allBefore_nil (by decide) ?_, by decide, by decide, ?_⟩
  · exact fun _ _ h => nomatch h
  · exact (crashed_sweep_iff _ _ _ 0 0 _ none _).2 (by decide)

end PaperIndex.Sync
