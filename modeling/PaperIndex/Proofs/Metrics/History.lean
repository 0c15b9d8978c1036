import PaperIndex.Proofs.Atomic
import PaperIndex.Proofs.Metrics.Accounts
import PaperIndex.Proofs.Metrics.Session

/-! # Runs of the counting engine

A run is a list of batches, each at its instant; a batch that is not accepted changes nothing, and
the run goes on. The log of a run lists the events of the accepted batches with their instants and
numbers. Requests of other kinds between the batches change nothing but the summaries (`served_eq`).

What the log says about an entry is proved event by event: `Kept` collects what has to be shown of
an account of a subject, and `Kept.run` concludes it for every run. -/

namespace PaperIndex.Metrics

open Counter (Memory Entry applyAll opsOn isLive)

/-- A batch of events at an instant. -/
structure Batch where
  now : Int
  events : List Event
deriving DecidableEq, Repr

/-- A recorded event with its instant and its number. -/
structure Occurrence where
  now : Int
  number : Nat
  event : Event
deriving DecidableEq, Repr

/-- The events of a batch as they are recorded, numbered from `fresh` on. -/
def Batch.occurrences (b : Batch) (fresh : Nat) : List Occurrence :=
  (b.events.zipIdx fresh).map fun r => ⟨b.now, r.2, r.1⟩

/-- The kind of an event. -/
def Event.kind : Event → EventKind
  | .view _ _ => .view
  | .download _ _ => .download
  | .dwell _ _ => .dwell
  | .searchClick _ => .searchClick
  | .searchDownload _ => .searchDownload

/-- The actor of an event, if there is one. -/
def Event.actor? : Event → Option String
  | .view _ actor => actor
  | .download _ actor => actor
  | _ => none

/-- How long the reader of an event stayed. -/
def Event.millis : Event → Nat
  | .dwell _ millis => millis
  | _ => 0

/-- The recorded events of a kind about a subject. -/
def about (kind : EventKind) (u : String) (log : List Occurrence) : List Occurrence :=
  log.filter fun o => o.event.kind = kind ∧ o.event.subject = u

/-- The changes of a recorded event under the key of an account of a subject. -/
def Account.changes (token : Nat → Window → String) (a : Account) (u : String) (o : Occurrence) :
    List Counter.Op :=
  if o.event.subject = u then a.ops o.now (token o.number) o.event else []

namespace Engine

variable {σ ς : Type}

/-- The state after a run. -/
def run (e : Engine σ ς) : List Batch → State σ ς → State σ ς
  | [], st => st
  | b :: bs, st => e.run bs (e.record b.now b.events st).2

/-- **The log of a run**: the events of the batches that are accepted. -/
def log (e : Engine σ ς) : List Batch → State σ ς → List Occurrence
  | [], _ => []
  | b :: bs, st =>
    (if (e.record b.now b.events st).1.isOk then b.occurrences st.fresh else []) ++
      e.log bs (e.record b.now b.events st).2

/-- **The states that an engine can reach**: by recording batches at whatever instants, accepted or
not, and by flushing summaries. -/
inductive Reachable (e : Engine σ ς) (st₀ : State σ ς) : State σ ς → Prop
  | start : Reachable e st₀ st₀
  | record {st} (now : Int) (events : List Event) (h : Reachable e st₀ st) :
    Reachable e st₀ (e.record now events st).2
  | flush {st} (now : Int) (h : Reachable e st₀ st) : Reachable e st₀ (e.flush now st).2

/-- The state of an engine in memory that has not recorded anything. -/
def start (summaries : ς) : State Memory ς := ⟨.empty, summaries, 0⟩

end Engine

theorem exists_actor_of_view {ev : Event} {u : String} (h : ev.kind = .view ∧ ev.subject = u) :
    ∃ actor, ev = .view u actor := by
  obtain ⟨hkind, rfl⟩ := h
  cases ev with
  | view uri actor => exact ⟨actor, rfl⟩
  | download uri actor => cases hkind
  | dwell uri millis => cases hkind
  | searchClick uri => cases hkind
  | searchDownload uri => cases hkind

/-- Only the views of a subject change its windows. -/
theorem changes_window (token : Nat → Window → String) (w : Window) (u : String) (now : Int)
    (n : Nat) (ev : Event) : (Account.window w).changes token u ⟨now, n, ev⟩ =
      if ev.kind = .view ∧ ev.subject = u then enterWindow now (token n) u w else [] := by
  unfold Account.changes
  by_cases hs : ev.subject = u
  · subst hs
    cases ev <;> simp [Account.ops, Event.kind, Event.subject]
  · simp [hs]

/-! ### One batch -/

theorem occurrences_cons (now : Int) (ev : Event) (events : List Event) (fresh : Nat) :
    (⟨now, ev :: events⟩ : Batch).occurrences fresh =
      ⟨now, fresh, ev⟩ :: (⟨now, events⟩ : Batch).occurrences (fresh + 1) := by
  unfold Batch.occurrences
  rw [List.zipIdx_cons, List.map_cons]

theorem occurrences_ne_nil {now : Int} {events : List Event} (h : events ≠ []) (fresh : Nat) :
    (⟨now, events⟩ : Batch).occurrences fresh ≠ [] := by
  obtain ⟨ev, rest, rfl⟩ := List.exists_cons_of_ne_nil h
  rw [occurrences_cons]
  exact List.cons_ne_nil _ _

theorem event_of_mem_occurrences {b : Batch} {fresh : Nat} {o : Occurrence}
    (h : o ∈ b.occurrences fresh) : o.event ∈ b.events := by
  obtain ⟨r, hr, rfl⟩ := List.mem_map.1 h
  exact List.fst_mem_of_mem_zipIdx hr

theorem now_of_mem_occurrences {b : Batch} {fresh : Nat} {o : Occurrence}
    (h : o ∈ b.occurrences fresh) : o.now = b.now := by
  obtain ⟨r, -, rfl⟩ := List.mem_map.1 h
  rfl

theorem checkBatch_eq_ok_iff {events : List Event} :
    checkBatch events = .ok () ↔ ∀ ev ∈ events, checkEvent ev = .ok () := by
  induction events with
  | nil => exact iff_of_true rfl fun ev hev => absurd hev List.not_mem_nil
  | cons ev events ih =>
    rw [List.forall_mem_cons, ← ih, checkBatch]
    cases checkEvent ev with
    | error fault => exact iff_of_false (fun h => nomatch h) fun h => nomatch h.1
    | ok u => exact (and_iff_right rfl).symm

/-! ### Words -/

/-- An event adds one to a tally, or how long its reader stayed. -/
theorem amount_eq {ev : Event} {k : Tally} {d : Nat} (hd : k.amount ev = some d) :
    d = 1 ∨ d = ev.millis := by
  cases k <;> cases ev <;> simp_all [Tally.amount, Event.millis]

theorem millis_lt {ev : Event} (hcheck : checkEvent ev = .ok ()) : ev.millis < Word.count 63 := by
  cases ev with
  | dwell uri millis =>
    by_contra hlong
    simp only [checkEvent, if_neg (show ¬millis < Word.count 63 from hlong)] at hcheck
    split at hcheck <;> cases hcheck
  | _ => exact (by decide : 0 < Word.count 63)

/-- An event that passes its check adds what fits into 64 bits. -/
theorem amount_lt {ev : Event} (hcheck : checkEvent ev = .ok ()) {k : Tally} {d : Nat}
    (hd : k.amount ev = some d) : d < Word.count 63 := by
  rcases amount_eq hd with rfl | rfl
  · decide
  · exact millis_lt hcheck

/-- The numbers in an operation. -/
def numbers : Counter.Op → List Int
  | .add _ delta => [delta]
  | .observe _ _ => []
  | .place _ _ score => [score]
  | .trim _ bound => [bound]
  | .expire _ instant => [instant]

/-- The numbers in a question. -/
def bounds : Counter.Query → List Int
  | .tally _ => []
  | .count _ => []
  | .within _ low high => [low, high]

/-- Around an instant with a date, a window lies within 64 bits. -/
theorem fits_of_near {now t : Int} (hnow : Time.hasDate now = true) (w : Window)
    (hlow : now - w.span ≤ t) (hhigh : t ≤ now + w.span) : Counter.fits t = true := by
  have hspan : w.span ≤ 2592000000 := by cases w <;> decide
  have hcount : (Word.count 63 : Int) = 9223372036854775808 := rfl
  rw [Time.hasDate_iff] at hnow
  rw [Counter.fits_iff, hcount]
  omega

/-- **What a batch hands to the store** at an instant with a date are words of 64 bits. -/
theorem fits_numbers {now : Int} (hnow : Time.hasDate now = true) {events : List Event}
    (hcheck : checkBatch events = .ok ()) (token : Nat → Window → String) (fresh : Nat) :
    ∀ op ∈ batchOps now token fresh events, ∀ n ∈ numbers op, Counter.fits n = true := by
  intro op hop n hn
  obtain ⟨r, hr, hop⟩ := List.mem_flatMap.1 hop
  rw [Account.opsOf_eq] at hop
  obtain ⟨a, -, hop⟩ := List.mem_flatMap.1 hop
  rcases a with k | k | w
  · obtain ⟨d, hd, rfl⟩ := List.mem_map.1 hop
    obtain rfl := List.mem_singleton.1 hn
    have hev := checkBatch_eq_ok_iff.1 hcheck r.1 (List.fst_mem_of_mem_zipIdx hr)
    exact Counter.fits_natCast_iff.2 (amount_lt hev (Option.mem_toList.1 hd))
  · obtain ⟨m, -, rfl⟩ := List.mem_map.1 hop
    cases hn
  · have hspan := w.span_pos
    cases hev : r.1 with
    | view uri actor =>
      rw [hev] at hop
      simp only [Account.ops, enterWindow, List.mem_cons, List.not_mem_nil, or_false] at hop
      rcases hop with rfl | rfl | rfl <;> obtain rfl := List.mem_singleton.1 hn <;>
        exact fits_of_near hnow w (by omega) (by omega)
    | _ =>
      rw [hev] at hop
      cases hop

/-- **What is asked about a window** at an instant with a date are words of 64 bits. -/
theorem fits_bounds {now : Int} (hnow : Time.hasDate now = true) (uri : String) (w : Window) :
    ∀ n ∈ bounds (windowQuery now uri w), Counter.fits n = true := by
  have hspan := w.span_pos
  intro n hn
  rcases List.mem_pair.1 hn with rfl | rfl <;> exact fits_of_near hnow w (by omega) (by omega)

section Store
variable {σ ς : Type} {e : Engine σ ς} (he : e.counters.Atomic)
include he

/-- **A batch** is empty, passes its checks and is carried out by the store, or fails and changes
nothing. -/
theorem record_eq (now : Int) (events : List Event) (st : State σ ς) :
    let r := e.counters.exec ⟨now, batchOps now e.token st.fresh events⟩ st.counters
    (events = [] ∧ e.record now events st = (.ok (), st)) ∨
      (events ≠ [] ∧ (checkBatch events = .ok () ∧ r.1 = .ok ()) ∧
        e.record now events st = (.ok (), ⟨r.2, st.summaries, st.fresh + events.length⟩)) ∨
      ∃ err, ¬(checkBatch events = .ok () ∧ r.1 = .ok ()) ∧
        e.record now events st = (.error err, st) := by
  intro r
  cases events with
  | nil => exact .inl ⟨rfl, rfl⟩
  | cons ev events =>
    refine .inr ?_
    unfold Engine.record
    rw [List.isEmpty_cons, if_neg Bool.false_ne_true]
    cases checkBatch (ev :: events) with
    | error fault =>
      refine .inr ⟨_, ?_, rfl⟩
      rintro ⟨hcheck, -⟩
      cases hcheck
    | ok u =>
      simp only [true_and]
      cases hr : r.1 with
      | ok u => exact .inl ⟨List.cons_ne_nil _ _, rfl, rfl⟩
      | error cause =>
        have hsame := he hr
        simp only [hsame]
        refine .inr ⟨_, ?_, rfl⟩
        intro hok
        cases hok

/-- **What every batch of a run keeps** if it is carried out holds of the number of the next event, the
log and the counters after the run. -/
theorem run_induction_store {Q : Nat → List Occurrence → σ → Prop} (bs : List Batch)
    (hbatch : ∀ b ∈ bs, ∀ {n log c}, Q n log c → b.events ≠ [] → checkBatch b.events = .ok () →
      (e.counters.exec ⟨b.now, batchOps b.now e.token n b.events⟩ c).1 = .ok () →
        Q (n + b.events.length) (log ++ b.occurrences n)
          (e.counters.exec ⟨b.now, batchOps b.now e.token n b.events⟩ c).2)
    (st : State σ ς) (log : List Occurrence) (h : Q st.fresh log st.counters) :
    Q (e.run bs st).fresh (log ++ e.log bs st) (e.run bs st).counters := by
  induction bs generalizing st log with
  | nil => rwa [Engine.log, List.append_nil]
  | cons b bs ih =>
    obtain ⟨hb, hbs⟩ := List.forall_mem_cons.1 hbatch
    rw [Engine.log, Engine.run, ← List.append_assoc]
    refine ih hbs _ _ ?_
    rcases record_eq he b.now b.events st with ⟨hnil, hr⟩ | ⟨hne, ⟨hcheck, hok⟩, hr⟩ | ⟨err, -, hr⟩
    · rw [hr, Batch.occurrences, hnil]
      simpa using h
    · rw [hr]
      exact hb h hne hcheck hok
    · rw [hr]
      simpa [Except.isOk, Except.toBool] using h

end Store

section Memory
variable {ς : Type} {e : Engine Memory ς} (he : e.counters = Memory.store)
include he

/-- **A batch** is accepted and carried out by the store, or it changes nothing. -/
theorem record_cases (now : Int) (events : List Event) (st : State Memory ς) :
    let p : Counter.Pipeline := ⟨now, batchOps now e.token st.fresh events⟩
    ((e.record now events st).1.isOk = true ∧ (Memory.exec p st.counters).1 = .ok () ∧
      (e.record now events st).2 =
        ⟨(Memory.exec p st.counters).2, st.summaries, st.fresh + events.length⟩) ∨
    ((e.record now events st).1.isOk = false ∧ (e.record now events st).2 = st) := by
  intro p
  rcases record_eq (he ▸ Memory.atomic) now events st with
    ⟨rfl, hr⟩ | ⟨-, ⟨-, hok⟩, hr⟩ | ⟨err, -, hr⟩
  · rw [hr]
    exact .inl ⟨rfl, rfl, rfl⟩
  · rw [he] at hok hr
    rw [hr]
    exact .inl ⟨rfl, hok, rfl⟩
  · rw [hr]
    exact .inr ⟨rfl, rfl⟩

/-- A batch that is refused changes nothing. -/
theorem snd_record_of_refused {now : Int} {events : List Event} {st : State Memory ς}
    (h : (e.record now events st).1.isOk = false) : (e.record now events st).2 = st := by
  rcases record_cases he now events st with ⟨hok, -⟩ | ⟨-, hst⟩
  · rw [h] at hok
    cases hok
  · exact hst

/-- A batch is accepted if it passes its checks and the store carries it out. -/
theorem isOk_record_iff {now : Int} {events : List Event} {st : State Memory ς} :
    (e.record now events st).1.isOk = true ↔ checkBatch events = .ok () ∧
      (Memory.exec ⟨now, batchOps now e.token st.fresh events⟩ st.counters).1 = .ok () := by
  rcases record_eq (he ▸ Memory.atomic) now events st with ⟨rfl, hr⟩ | ⟨-, hok, hr⟩ | ⟨err, hno, hr⟩
  · exact iff_of_true rfl ⟨rfl, rfl⟩
  · rw [he] at hok
    rw [hr]
    exact iff_of_true rfl hok
  · rw [he] at hno
    rw [hr]
    exact iff_of_false Bool.false_ne_true hno

/-- A batch that passes its checks leaves what the store makes of it. -/
theorem counters_record (now : Int) {events : List Event} (hcheck : checkBatch events = .ok ())
    (st : State Memory ς) : (e.record now events st).2.counters =
      (Memory.exec ⟨now, batchOps now e.token st.fresh events⟩ st.counters).2 := by
  rcases record_cases he now events st with ⟨-, -, hst⟩ | ⟨hfail, hst⟩
  · rw [hst]
  · rw [hst]
    cases hexec : (Memory.exec ⟨now, batchOps now e.token st.fresh events⟩ st.counters).1 with
    | ok u =>
      rw [(isOk_record_iff he).2 ⟨hcheck, hexec⟩] at hfail
      cases hfail
    | error err => exact (Memory.exec_snd_of_error hexec).symm

/-- **What every accepted batch keeps** holds of the log and the counters after every run. -/
theorem run_induction {Q : List Occurrence → Memory → Prop} (hstart : Q [] .empty)
    (hbatch : ∀ (b : Batch) n log m, Q log m →
      (Memory.exec ⟨b.now, batchOps b.now e.token n b.events⟩ m).1 = .ok () →
        Q (log ++ b.occurrences n) (Memory.exec ⟨b.now, batchOps b.now e.token n b.events⟩ m).2)
    (bs : List Batch) {summaries : ς} :
    Q (e.log bs (Engine.start summaries)) (e.run bs (Engine.start summaries)).counters := by
  have h := run_induction_store (he ▸ Memory.atomic) (Q := fun _ log m => Q log m) bs ?_
    (Engine.start summaries) [] hstart
  · exact h
  · rw [he]
    exact fun b _ n log m h _ _ hok => hbatch b n log m h hok

end Memory

/-! ### What a log says about an account -/

/-- **What is shown of an account** of a subject, so that `P` holds of its entry after every run by
a clock whose steps are in `T`. Beside the entry, `P` is about the instant, the number of the next
event and the log. It holds at the start and while the clock moves on, it holds of the entry without
what has lapsed, and every event keeps it. -/
structure Kept (token : Nat → Window → String) (a : Account) (u : String) (T : Int → Int → Prop)
    (P : Int → Nat → List Occurrence → Option Entry → Prop) : Prop where
  start : ∀ now, P now 0 [] none
  advance : ∀ {now now' n log slot}, T now now' → P now n log slot → P now' n log slot
  lapse : ∀ {now n log slot}, P now n log slot →
    P now n log (slot.filter fun entry => isLive now entry.expiry)
  step : ∀ {now n log slot slot'} (ev : Event), P now n log slot →
    applyAll now (a.changes token u ⟨now, n, ev⟩) slot = .ok slot' →
    P now (n + 1) (log ++ [⟨now, n, ev⟩]) slot'

namespace Kept

variable {token : Nat → Window → String} {a : Account} {u : String} {T : Int → Int → Prop}
  {P : Int → Nat → List Occurrence → Option Entry → Prop}

/-- The events of a batch in turn. -/
theorem events (hk : Kept token a u T P) {now : Int} {events : List Event} {n : Nat}
    {log : List Occurrence} {slot slot' : Option Entry}
    (hsub : ∀ ev ∈ events, ¬Entangled ev.subject u) (h : P now n log slot)
    (hok : applyAll now (opsOn (a.key u) (batchOps now token n events)) slot = .ok slot') :
    P now (n + events.length) (log ++ (⟨now, events⟩ : Batch).occurrences n) slot' := by
  induction events generalizing n log slot with
  | nil =>
    cases hok
    rwa [show (⟨now, []⟩ : Batch).occurrences n = [] from rfl, List.append_nil]
  | cons ev events ih =>
    rw [List.forall_mem_cons] at hsub
    rw [batchOps_cons, Counter.opsOn_append, opsOn_opsOf now (token n) a hsub.1] at hok
    obtain ⟨slot₁, hev, hok⟩ := Counter.applyAll_append_eq_ok_iff.1 hok
    have hrest := ih hsub.2 (hk.step ev h hev) hok
    rw [occurrences_cons, List.append_cons, List.length_cons, Nat.add_comm events.length 1,
      ← Nat.add_assoc]
    exact hrest

/-- A batch that is carried out. -/
theorem batch (hk : Kept token a u T P) {now : Int} {events : List Event} {n : Nat}
    {log : List Occurrence} {m : Memory} (hsub : ∀ ev ∈ events, ¬Entangled ev.subject u)
    (h : P now n log (m.entries.find? (a.key u)))
    (hok : (Memory.exec ⟨now, batchOps now token n events⟩ m).1 = .ok ()) :
    P now (n + events.length) (log ++ (⟨now, events⟩ : Batch).occurrences n)
      ((Memory.exec ⟨now, batchOps now token n events⟩ m).2.entries.find? (a.key u)) := by
  by_cases hmem : a.key u ∈ (batchOps now token n events).map Counter.Op.key
  · exact hk.events hsub (hk.lapse h) (Memory.find?_exec_of_mem hok hmem)
  · rw [Memory.find?_exec_of_not_mem _ m hmem]
    refine hk.events hsub h ?_
    rw [Counter.opsOn_eq_nil_iff.2 hmem, Counter.applyAll_nil]

section Run
variable {ς : Type} {e : Engine Memory ς} (he : e.counters = Memory.store)
include he

/-- What holds before a run holds at every instant that the clock moves on to after it. -/
theorem run_from (hk : Kept e.token a u T P) {bs : List Batch} {st : State Memory ς}
    (log : List Occurrence) (now : Int) {now' : Int}
    (hsub : ∀ b ∈ bs, ∀ ev ∈ b.events, ¬Entangled ev.subject u)
    (hT : (now :: (bs.map Batch.now ++ [now'])).Pairwise T)
    (h : P now st.fresh log (st.counters.entries.find? (a.key u))) :
    P now' (e.run bs st).fresh (log ++ e.log bs st)
      ((e.run bs st).counters.entries.find? (a.key u)) := by
  induction bs generalizing st log now with
  | nil =>
    rw [Engine.log, List.append_nil]
    exact hk.advance (List.pairwise_pair.1 hT) h
  | cons b bs ih =>
    obtain ⟨hnow, hT⟩ := List.pairwise_cons.1 hT
    have hb := hk.advance (hnow b.now List.mem_cons_self) h
    rw [List.forall_mem_cons] at hsub
    rw [Engine.log, Engine.run]
    rcases record_cases he b.now b.events st with ⟨hok, hexec, hst⟩ | ⟨hfail, hst⟩
    · rw [hok, hst, if_pos rfl, ← List.append_assoc]
      exact ih _ _ hsub.2 hT (hk.batch hsub.1 hb hexec)
    · rw [hfail, hst, if_neg Bool.false_ne_true, List.nil_append]
      exact ih _ _ hsub.2 hT hb

/-- **A run**: what is shown of an account holds of the log and of the entry at the end. -/
theorem run (hk : Kept e.token a u T P) (hT₀ : ∀ now, T now now) {bs : List Batch} {now : Int}
    (summaries : ς) (hsub : ∀ b ∈ bs, ∀ ev ∈ b.events, ¬Entangled ev.subject u)
    (hT : (bs.map Batch.now ++ [now]).Pairwise T) :
    P now (e.run bs (Engine.start summaries)).fresh (e.log bs (Engine.start summaries))
      ((e.run bs (Engine.start summaries)).counters.entries.find? (a.key u)) := by
  cases bs with
  | nil => exact hk.start now
  | cons b bs =>
    refine hk.run_from he [] b.now hsub ?_ (hk.start b.now)
    refine List.pairwise_cons.2 ⟨fun x hx => ?_, hT⟩
    rcases List.mem_cons.1 hx with rfl | hx
    · exact hT₀ b.now
    · exact (List.pairwise_cons.1 hT).1 x hx

end Run

end Kept

/-! ### Requests between batches -/

/-- The batches among requests, each at its instant. -/
def batchesOf (qs : List (Int × Request)) : List Batch :=
  qs.filterMap fun q => match q.2 with
    | .record events => some ⟨q.1, events⟩
    | _ => none

namespace Engine

variable {σ ς : Type} (e : Engine σ ς)

/-- A batch does not look at the summaries. -/
theorem record_summaries (now : Int) (events : List Event) (st : State σ ς) (summaries : ς) :
    (e.record now events { st with summaries }).2 =
      { (e.record now events st).2 with summaries } := by
  unfold record
  by_cases hempty : events.isEmpty = true
  · rw [if_pos hempty, if_pos hempty]
  rw [if_neg hempty, if_neg hempty]
  cases checkBatch events with
  | error fault => rfl
  | ok u =>
    dsimp only
    cases (e.counters.exec ⟨now, batchOps now e.token st.fresh events⟩ st.counters).1 <;> rfl

theorem run_summaries (bs : List Batch) (st : State σ ς) (summaries : ς) :
    e.run bs { st with summaries } = { e.run bs st with summaries } := by
  induction bs generalizing st with
  | nil => rfl
  | cons b bs ih =>
    rw [run, run, record_summaries]
    exact ih _

/-- **Requests that are not batches** change nothing but the summaries. -/
theorem served_eq (qs : List (Int × Request)) (st : State σ ς) :
    e.served qs st =
      { e.run (batchesOf qs) st with summaries := (e.served qs st).summaries } := by
  induction qs generalizing st with
  | nil => rfl
  | cons q qs ih =>
    obtain ⟨now, q⟩ := q
    cases q with
    | record events => exact ih _
    | summary uri => exact ih st
    | viewCount uri => exact ih st
    | trending w limit => exact ih st
    | flush =>
      have hflushed := ih (e.flush now st).2
      rw [flush_eq, run_summaries, ← flush_eq] at hflushed
      exact hflushed

theorem counters_served (qs : List (Int × Request)) (st : State σ ς) :
    (e.served qs st).counters = (e.run (batchesOf qs) st).counters := by
  rw [served_eq]

end Engine

end PaperIndex.Metrics
