import PaperIndex.Proofs.Counter.Agreement
import PaperIndex.Proofs.Counter.Cells
import PaperIndex.Proofs.Metrics.Held

/-! # Nested windows

Whatever the clock does, the views within a day are at most those within a week, these at most those
within a month, and these at most all views, over the store in memory and over the relational one
(`summary_nested`).

Both stores look at the window of a subject with each of its views. The relational one also does so
with every other recorded event, since it purges first. So in memory a window holds what follows
from the views of its subject (`holds_exec`, `holds_run`), and in the relations what follows from
the whole log (`shows_exec`, `shows_run`).

Memory refuses a batch that a tally cannot take. The relations take every batch, but a tally that
has left the integers of 64 bits cannot be read any more, and so neither can the summary of its
subject (`answer_of_rowsOfTally`). -/

namespace PaperIndex.Metrics

open Counter (Memory Relational Rows Shows Cell Entry opsOn isLive)

/-- **The windows of a summary are nested.** -/
def Summary.Nested (s : Summary) : Prop :=
  s.viewsOfDay ≤ s.viewsOfWeek ∧ s.viewsOfWeek ≤ s.viewsOfMonth ∧ s.viewsOfMonth ≤ s.totalViews

/-- All summaries that can be read at any instant are nested, and the summary of a record can be
read exactly if it is `Readable`. -/
def Engine.Nests {σ ς : Type} (e : Engine σ ς) (counters : σ) (Readable : String → Prop) : Prop :=
  ∀ now u, (∀ s, e.summary now u counters = .ok s → s.Nested) ∧
    (IsRecord u → ((∃ s, e.summary now u counters = .ok s) ↔ Readable u))

/-- What has been recorded about a subject is counted within 64 bits by each of its tallies. -/
def Countable (log : List Occurrence) (u : String) : Prop :=
  ∀ k : Tally, (gains k.amount u log).sum < Word.count 63

/-- What a recorded event is about is a record, if all events are about records. -/
theorem isRecord_of_about {kind : EventKind} {log : List Occurrence} {u : String}
    (hlog : ∀ o ∈ log, IsRecord o.event.subject) (h : about kind u log ≠ []) : IsRecord u := by
  obtain ⟨o, ho⟩ := List.exists_mem_of_ne_nil _ h
  obtain ⟨ho, hkind⟩ := List.mem_filter.1 ho
  exact (of_decide_eq_true hkind).2 ▸ hlog o ho

/-- The counts of what the windows hold after a log are nested, if the views of every record are
counted. -/
theorem Summary.nested_ofAnswers {n : Account → Nat} {u : String} (now : Int)
    {log : List Occurrence} (hlog : ∀ o ∈ log, IsRecord o.event.subject)
    (hwindow : ∀ w, n (.window w) = windowCount w now (held w u log))
    (hviews : IsRecord u → n (.tally .views) = (about .view u log).length) :
    (Summary.ofAnswers u n).Nested := by
  have hle : ∀ w w' : Window, w.span ≤ w'.span → n (.window w) ≤ n (.window w') := by
    intro w w' hspan
    rw [hwindow, hwindow]
    exact windowCount_le hspan (held_within hspan u log) now
  refine ⟨hle .day .week (by decide), hle .week .month (by decide), ?_⟩
  change n (.window .month) ≤ n (.tally .views)
  have hheld := windowCount_le_length .month u now log
  rw [hwindow]
  by_cases hviewed : about .view u log = []
  · rw [hviewed, List.length_nil, Nat.le_zero] at hheld
    rw [hheld]
    exact Nat.zero_le _
  · rwa [hviews (isRecord_of_about hlog hviewed)]

section Counts
variable {token : Nat → Window → String} {w : Window} {n : Nat} {vs : List Occurrence}
  {slot : Option Entry}

theorem countP_of_perm {t : Table String Int} (hrows : t.rows.Perm (vs.map (memberRow token w)))
    (now : Int) :
    t.rows.countP (fun row => now - w.span + 1 ≤ row.2 && row.2 ≤ now) =
      vs.countP fun v => now - w.span < v.now ∧ v.now ≤ now := by
  rw [hrows.countP_eq, List.countP_map]
  refine List.countP_congr fun v _ => ?_
  change (decide (now - w.span + 1 ≤ v.now) && decide (v.now ≤ now)) = true ↔ _
  rw [Bool.and_eq_true, decide_eq_true_eq, decide_eq_true_eq, decide_eq_true_eq]
  omega

/-! ### In memory -/

/-- The answer about a window is the number of the views that it holds. -/
theorem answer_of_holds {m : Memory} {u : String}
    (h : Holds token w n vs (m.entries.find? ((Account.window w).key u))) (now : Int) :
    m.answer now ((Account.window w).query now u) = .ok (windowCount w now vs) := by
  have hlive := h.live now
  unfold Memory.answer Memory.live? windowCount
  rw [Account.key_query]
  generalize (m.entries.find? ((Account.window w).key u)).filter _ = slot at hlive
  generalize unexpired w now vs = left at hlive
  cases hlive with
  | none => rfl
  | scores t last hlast hrows hnumbers =>
    exact congrArg (fun k : Nat => Except.ok (k : Int)) (countP_of_perm hrows now)

end Counts

section Exec
variable {token : Nat → Window → String} (hdistinct : ∀ w i j, token i w = token j w → i = j)
  {now : Int} {events : List Event} (hsub : ∀ ev ∈ events, IsRecord ev.subject) {n : Nat}
  {log : List Occurrence} {w : Window} {u : String}
include hdistinct hsub

/-- **A batch in memory** keeps what the windows hold. -/
theorem holds_exec {m : Memory}
    (h : Holds token w n (held w u (about .view u log))
      (m.entries.find? ((Account.window w).key u)))
    (hok : (Memory.exec ⟨now, batchOps now token n events⟩ m).1 = .ok ()) :
    Holds token w (n + events.length)
      (held w u (about .view u (log ++ (⟨now, events⟩ : Batch).occurrences n)))
      ((Memory.exec ⟨now, batchOps now token n events⟩ m).2.entries.find?
        ((Account.window w).key u)) := by
  have hnow : ∀ o ∈ (⟨now, events⟩ : Batch).occurrences n, o.now = now :=
    fun _ => now_of_mem_occurrences
  have habout : about .view u (log ++ (⟨now, events⟩ : Batch).occurrences n) =
      about .view u log ++ about .view u ((⟨now, events⟩ : Batch).occurrences n) :=
    List.filter_append ..
  rw [habout]
  by_cases hmem : (Account.window w).key u ∈ (batchOps now token n events).map Counter.Op.key
  · -- The batch has views of the subject, so the window is looked at.
    have hviews : about .view u ((⟨now, events⟩ : Batch).occurrences n) ≠ [] := fun hnil =>
      absurd hmem (Counter.opsOn_eq_nil_iff.1 ((opsOn_window_eq_nil_iff hsub).2 hnil))
    have happ := Memory.find?_exec_of_mem hok hmem
    obtain ⟨slot', hslot, h'⟩ := holds_events hsub (hdistinct w) (h.live now)
    obtain rfl := Except.ok.inj (happ.symm.trans hslot)
    rw [held_append, ← unexpired_foldl hviews fun o ho => hnow o (List.mem_of_mem_filter ho),
      foldl_about hnow]
    exact h'
  · rw [Memory.find?_exec_of_not_mem _ m hmem,
      (opsOn_window_eq_nil_iff hsub).1 (Counter.opsOn_eq_nil_iff.2 hmem), List.append_nil]
    exact h.mono (Nat.le_add_right n _)

/-! ### In the relations -/

/-- The rows of a window show an entry that holds certain views. -/
def ShowsHeld (token : Nat → Window → String) (w : Window) (n : Nat) (vs : List Occurrence)
    (rows : Rows) : Prop := ∃ slot, Shows rows slot ∧ Holds token w n vs slot

/-- **A batch in the relations** keeps what the windows hold. -/
theorem shows_exec {r : Relational} (hne : events ≠ [])
    (h : ShowsHeld token w n (held w u log) (r.rowsAt ((Account.window w).key u))) :
    ShowsHeld token w (n + events.length)
      (held w u (log ++ (⟨now, events⟩ : Batch).occurrences n))
      ((Relational.exec ⟨now, batchOps now token n events⟩ r).2.rowsAt
        ((Account.window w).key u)) := by
  obtain ⟨slot, hshows, hholds⟩ := h
  obtain ⟨slot', hok, hholds'⟩ := holds_events hsub (hdistinct w) (hholds.live now)
  refine ⟨slot', ?_, ?_⟩
  · rw [Relational.rowsAt_exec (batchOps_ne_nil hne)]
    exact Counter.shows_applyAll hok (Counter.shows_purged hshows now)
  · rw [held_append, ← unexpired_foldl (occurrences_ne_nil hne n) fun o => now_of_mem_occurrences]
    exact hholds'

end Exec

/-! ### Tallies -/

/-- The rows of a tally that is kept for ever, or none while nothing has been added. -/
def RowsOfTally (n : Nat) (rows : Rows) : Prop :=
  (rows = Rows.none ∧ n = 0) ∨ ∃ cell : Cell, cell.Holds n ∧ rows = Rows.ofTally cell none

theorem rowsOfTally_add {n d : Nat} {rows : Rows} (h : RowsOfTally n rows)
    (hd : d < Word.count 63) (now : Int) (key : String) :
    RowsOfTally (n + d) (rows.apply now (.add key d)) := by
  refine .inr ?_
  rcases h with ⟨rfl, rfl⟩ | ⟨cell, hcell, rfl⟩
  · rw [Nat.zero_add]
    exact ⟨.integer d, ⟨rfl, hd⟩, rfl⟩
  · exact ⟨cell.plus d, Cell.holds_plus hcell d, rfl⟩

theorem rowsOfTally_purge {n : Nat} {r : Relational} {key : String}
    (h : RowsOfTally n (r.rowsAt key)) (now : Int) : RowsOfTally n ((r.purge now).rowsAt key) := by
  have hlisted : r.hasExpired now key = false := by
    unfold Relational.hasExpired
    rw [← Relational.expiry_rowsAt]
    rcases h with ⟨hrows, -⟩ | ⟨cell, -, hrows⟩
    · rw [hrows]
      rfl
    · rw [hrows]
      rfl
  rwa [Relational.rowsAt_purge, hlisted, if_neg Bool.false_ne_true]

section Tallies
variable {now : Int} {events : List Event} (hsub : ∀ ev ∈ events, IsRecord ev.subject)
  (hcheck : ∀ ev ∈ events, checkEvent ev = .ok ()) {fresh n : Nat} {u : String} (hu : IsRecord u)
  (k : Tally)
include hsub hcheck hu

/-- The events of a batch add to the tally what it gains from them. -/
theorem rowsOfTally_events (token : Nat → Window → String) {rows : Rows} (h : RowsOfTally n rows) :
    RowsOfTally (n + (gains k.amount u ((⟨now, events⟩ : Batch).occurrences fresh)).sum)
      ((opsOn ((Account.tally k).key u) (batchOps now token fresh events)).foldl
        (Rows.apply now) rows) := by
  induction events generalizing fresh n rows with
  | nil => exact h
  | cons ev events ih =>
    obtain ⟨hev, hevents⟩ := List.forall_mem_cons.1 hsub
    obtain ⟨hevCheck, heventsCheck⟩ := List.forall_mem_cons.1 hcheck
    rw [batchOps_cons, Counter.opsOn_append, List.foldl_append, occurrences_cons,
      opsOn_opsOf now (token fresh) _ (not_entangled_of_isRecord hev hu), gains,
      List.filterMap_cons]
    by_cases hs : ev.subject = u
    · rw [if_pos hs, if_pos hs, Account.ops]
      cases hd : k.amount ev with
      | none => exact ih hevents heventsCheck h
      | some d =>
        rw [List.sum_cons, ← Nat.add_assoc]
        exact ih hevents heventsCheck
          (rowsOfTally_add h (amount_lt hevCheck hd) now ((Account.tally k).key ev.subject))
    · rw [if_neg hs, if_neg hs]
      exact ih hevents heventsCheck h

theorem rowsOfTally_exec (token : Nat → Window → String) {r : Relational} (hne : events ≠ [])
    (h : RowsOfTally n (r.rowsAt ((Account.tally k).key u))) :
    RowsOfTally (n + (gains k.amount u ((⟨now, events⟩ : Batch).occurrences fresh)).sum)
      ((Relational.exec ⟨now, batchOps now token fresh events⟩ r).2.rowsAt
        ((Account.tally k).key u)) := by
  rw [Relational.rowsAt_exec (batchOps_ne_nil hne)]
  exact rowsOfTally_events hsub hcheck hu k token (rowsOfTally_purge h now)

end Tallies

/-! ### Answers from the relations -/

section Answers
variable {r : Relational} {key : String}

theorem isLiveKey_of_rows {x : Option Int} (h : (r.rowsAt key).expiry = some x) (now : Int) :
    r.isLiveKey now key = isLive now x := by
  rw [Relational.expiry_rowsAt] at h
  rw [Relational.isLiveKey, h]
  rfl

theorem not_isLiveKey_of_rows (h : r.rowsAt key = Rows.none) (now : Int) :
    r.isLiveKey now key = false := by
  have hkey : r.keys.find? key = none := congrArg Rows.expiry h
  rw [Relational.isLiveKey, hkey]
  rfl

theorem answer_of_rowsOfTally {n : Nat} (h : RowsOfTally n (r.rowsAt key)) (now : Int) :
    r.answer now (.tally key) =
      if n < Word.count 63 then .ok (n : Int) else .error .notInteger := by
  rw [Relational.answer]
  rcases h with ⟨hrows, rfl⟩ | ⟨cell, hcell, hrows⟩
  · rw [not_isLiveKey_of_rows hrows, if_neg Bool.false_ne_true, if_pos (by decide)]
    rfl
  · have htally : r.tallies.find? key = some cell := congrArg Rows.tally hrows
    have hlive : r.isLiveKey now key = true := isLiveKey_of_rows (congrArg Rows.expiry hrows) now
    rw [if_pos hlive, htally]
    exact Cell.read_of_holds hcell

theorem exists_answer_count (r : Relational) (key : String) (now : Int) :
    ∃ n, r.answer now (.count key) = .ok n := by
  simp only [Relational.answer]
  split_ifs <;> exact ⟨_, rfl⟩

theorem answer_of_showsHeld {token : Nat → Window → String} {w : Window} {n : Nat}
    {vs : List Occurrence} {u : String}
    (h : ShowsHeld token w n vs (r.rowsAt ((Account.window w).key u))) (now : Int) :
    r.answer now ((Account.window w).query now u) = .ok (windowCount w now vs) := by
  obtain ⟨slot, hshows, hholds⟩ := h
  change r.answer now (.within ((Account.window w).key u) _ _) = _
  rw [Relational.answer]
  generalize hrows : r.rowsAt ((Account.window w).key u) = rows at hshows
  cases hholds with
  | none =>
    cases hshows
    rw [not_isLiveKey_of_rows hrows, if_neg Bool.false_ne_true, windowCount, unexpired_nil]
    rfl
  | scores t last hlast hperm hnumbers =>
    cases hshows
    have hlapse : lapseOf w vs = some (last.now + w.span) := by
      rw [lapseOf, hlast]
      rfl
    have hscore : ∀ m, (r.rowsAt ((Account.window w).key u)).score m = t.find? m :=
      congrFun (congrArg Rows.score hrows)
    rw [isLiveKey_of_rows (congrArg Rows.expiry hrows), windowCount, unexpired, hlapse]
    split
    · rw [Relational.countP_scores hscore, countP_of_perm hperm]
    · rfl

end Answers

/-! ### Runs -/

section Runs
variable {ς : Type} {bs : List Batch} (hsub : ∀ b ∈ bs, ∀ ev ∈ b.events, IsRecord ev.subject)
include hsub

theorem isRecord_of_mem_log {σ : Type} (e : Engine σ ς) {st : State σ ς} {o : Occurrence}
    (ho : o ∈ e.log bs st) : IsRecord o.event.subject := by
  induction bs generalizing st with
  | nil => cases ho
  | cons b bs ih =>
    obtain ⟨hb, hbs⟩ := List.forall_mem_cons.1 hsub
    rcases List.mem_append.1 ho with ho | ho
    · split at ho
      · exact hb _ (event_of_mem_occurrences ho)
      · cases ho
    · exact ih hbs ho

/-- What the windows hold after a run in memory. -/
theorem holds_run {e : Engine Memory ς} (he : e.counters = Memory.store)
    (hdistinct : ∀ w i j, e.token i w = e.token j w → i = j) (summaries : ς) (w : Window)
    (u : String) : Holds e.token w (e.run bs (Engine.start summaries)).fresh
      (held w u (about .view u (e.log bs (Engine.start summaries))))
      ((e.run bs (Engine.start summaries)).counters.entries.find? ((Account.window w).key u)) := by
  refine run_induction_store (he ▸ Memory.atomic) bs
    (Q := fun n log m => Holds e.token w n (held w u (about .view u log))
      (m.entries.find? ((Account.window w).key u))) ?_ (Engine.start summaries) [] .none
  intro b hb n log m h _ _ hok
  rw [he] at hok ⊢
  exact holds_exec hdistinct (hsub b hb) h hok

/-- What the windows and the tallies hold after a run in the relations. -/
theorem shows_run {e : Engine Relational ς} (he : e.counters = Relational.store)
    (hdistinct : ∀ w i j, e.token i w = e.token j w → i = j) (summaries : ς) (u : String) :
    let st := e.run bs ⟨.empty, summaries, 0⟩
    let log := e.log bs ⟨.empty, summaries, 0⟩
    (∀ w, ShowsHeld e.token w st.fresh (held w u log)
        (st.counters.rowsAt ((Account.window w).key u))) ∧
      (IsRecord u → ∀ k : Tally, RowsOfTally (gains k.amount u log).sum
        (st.counters.rowsAt ((Account.tally k).key u))) := by
  have hatomic : e.counters.Atomic := by
    rw [he]
    intro p r err herr
    cases (Counter.exec_relational p r).symm.trans herr
  refine run_induction_store hatomic bs
    (Q := fun n log r =>
      (∀ w, ShowsHeld e.token w n (held w u log) (r.rowsAt ((Account.window w).key u))) ∧
        (IsRecord u → ∀ k : Tally, RowsOfTally (gains k.amount u log).sum
          (r.rowsAt ((Account.tally k).key u))))
    ?_ ⟨.empty, summaries, 0⟩ [] ⟨fun w => ⟨none, .free, .none⟩, fun _ _ => .inl ⟨rfl, rfl⟩⟩
  intro b hb n log r h hne hcheck _
  rw [he]
  refine ⟨fun w => shows_exec hdistinct (hsub b hb) hne (h.1 w), fun hu k => ?_⟩
  have hgains : gains k.amount u (log ++ b.occurrences n) =
      gains k.amount u log ++ gains k.amount u (b.occurrences n) := List.filterMap_append ..
  rw [hgains, List.sum_append_nat]
  exact rowsOfTally_exec (hsub b hb) (checkBatch_eq_ok_iff.1 hcheck) hu k e.token hne (h.2 hu k)

/-- The windows stay nested in memory. -/
theorem nests_memory {e : Engine Memory ς} (he : e.counters = Memory.store)
    (hdistinct : ∀ w i j, e.token i w = e.token j w → i = j) (summaries : ς) :
    e.Nests (e.run bs (Engine.start summaries)).counters fun _ => True := by
  intro now u
  have hlog : ∀ o ∈ about .view u (e.log bs (Engine.start summaries)), IsRecord o.event.subject :=
    fun o ho => isRecord_of_mem_log hsub e (List.mem_of_mem_filter ho)
  have hwindow := fun w => answer_of_holds (holds_run hsub he hdistinct summaries w u) now
  have hanswers := fun hu : IsRecord u => answers_of_run he hsub hu summaries now
  constructor
  · intro s hs
    obtain ⟨n, hn, rfl⟩ := (summary_eq_ok_iff (answersBy_memory he)).1 hs
    refine Summary.nested_ofAnswers now hlog (fun w => ?_) fun hu => ?_
    · rw [Except.ok.inj ((hn (.window w)).symm.trans (hwindow w)), Int.toNat_natCast]
    · rw [Except.ok.inj ((hn (.tally .views)).symm.trans ((hanswers hu).1 .views)),
        Int.toNat_natCast, about_about]
      exact sum_gains_eq_length (fun ev => by cases ev <;> rfl) u _
  · intro hu
    obtain ⟨htally, hcrowd, -⟩ := hanswers hu
    exact iff_of_true ⟨_, summary_of_counts (answersBy_memory he) htally hcrowd hwindow⟩ trivial

/-- The windows stay nested in the relations. -/
theorem nests_relational {e : Engine Relational ς} (he : e.counters = Relational.store)
    (hdistinct : ∀ w i j, e.token i w = e.token j w → i = j) (summaries : ς) :
    e.Nests (e.run bs ⟨.empty, summaries, 0⟩).counters
      (Countable (e.log bs ⟨.empty, summaries, 0⟩)) := by
  intro now u
  obtain ⟨hheld, htally⟩ := shows_run hsub he hdistinct summaries u
  have hlog : ∀ o ∈ e.log bs ⟨.empty, summaries, 0⟩, IsRecord o.event.subject := fun _ =>
    isRecord_of_mem_log hsub e
  generalize e.log bs ⟨.empty, summaries, 0⟩ = log at hheld htally hlog
  generalize (e.run bs ⟨.empty, summaries, 0⟩).counters = r at hheld htally
  have hanswer : IsRecord u → ∀ k : Tally, r.answer now ((Account.tally k).query now u) =
      if (gains k.amount u log).sum < Word.count 63 then .ok ((gains k.amount u log).sum : Int)
      else .error .notInteger := fun hu k => answer_of_rowsOfTally (htally hu k) now
  have hwindow := fun w => answer_of_showsHeld (hheld w) now
  constructor
  · intro s hs
    obtain ⟨n, hn, rfl⟩ := (summary_eq_ok_iff (answersBy_relational he)).1 hs
    refine Summary.nested_ofAnswers now hlog (fun w => ?_) fun hu => ?_
    · rw [Except.ok.inj ((hn (.window w)).symm.trans (hwindow w)), Int.toNat_natCast]
    · have hviews := (hn (.tally .views)).symm.trans (hanswer hu .views)
      split_ifs at hviews
      rw [Except.ok.inj hviews, Int.toNat_natCast]
      exact sum_gains_eq_length (fun ev => by cases ev <;> rfl) u log
  · intro hu
    constructor
    · rintro ⟨s, hs⟩ k
      obtain ⟨n, hn, -⟩ := (summary_eq_ok_iff (answersBy_relational he)).1 hs
      by_contra hover
      have hfails := hanswer hu k
      rw [if_neg hover, hn] at hfails
      cases hfails
    · intro hcountable
      choose crowd hcrowd using fun k : Crowd =>
        exists_answer_count r ((Account.crowd k).key u) now
      exact ⟨_, summary_of_counts (answersBy_relational he)
        (fun k => (hanswer hu k).trans (if_pos (hcountable k))) hcrowd hwindow⟩

/-- **Windows stay nested**, whatever the clock does. After every run of batches about records, in
memory and in the relations, with tokens that are never drawn twice, every summary that is read at
any instant has no more views within a day than within a week, within a week than within a month,
and within a month than there are. In memory every summary of a record can be read. In the relations
this is so exactly as long as its tallies fit into 64 bits, which memory sees to when it records. -/
theorem summary_nested {e : Engine Memory ς} (he : e.counters = Memory.store)
    {e' : Engine Relational ς} (he' : e'.counters = Relational.store)
    (hdistinct : ∀ w i j, e.token i w = e.token j w → i = j)
    (hdistinct' : ∀ w i j, e'.token i w = e'.token j w → i = j) (summaries : ς) :
    e.Nests (e.run bs (Engine.start summaries)).counters (fun _ => True) ∧
      e'.Nests (e'.run bs ⟨.empty, summaries, 0⟩).counters
        (Countable (e'.log bs ⟨.empty, summaries, 0⟩)) :=
  ⟨nests_memory hsub he hdistinct summaries, nests_relational hsub he' hdistinct' summaries⟩

end Runs

/-- A view, and one more after the clock has gone back ten days: at the instant of the first view
the windows of a day and of a week have expired, and the window of a month has both views. -/
theorem summary_nested_clock_back :
    let e : Engine Memory Unit := .withUsualLimit Memory.store none
    let e' : Engine Relational Unit := .withUsualLimit Relational.store none
    let bs : List Batch :=
      [⟨864000000, [.view "at://a/b/c" none]⟩, ⟨0, [.view "at://a/b/c" none]⟩]
    let counts (s : Summary) := (s.viewsOfDay, s.viewsOfWeek, s.viewsOfMonth, s.totalViews)
    e.counters = Memory.store ∧ e'.counters = Relational.store ∧
      (∀ w i j, e.token i w = e.token j w → i = j) ∧
      (∀ w i j, e'.token i w = e'.token j w → i = j) ∧
      (∀ b ∈ bs, ∀ ev ∈ b.events, IsRecord ev.subject) ∧
      (∃ s, e.summary 864000000 "at://a/b/c" (e.run bs (Engine.start ())).counters = .ok s ∧
        s.Nested ∧ counts s = (0, 0, 2, 2)) ∧
      ∃ s, e'.summary 864000000 "at://a/b/c" (e'.run bs ⟨.empty, (), 0⟩).counters = .ok s ∧
        s.Nested ∧ counts s = (0, 0, 2, 2) := by
  intro e e' bs counts
  have hdistinct : ∀ w i j, e.token i w = e.token j w → i = j := token_withUsualLimit_inj
  have hdistinct' : ∀ w i j, e'.token i w = e'.token j w → i = j := token_withUsualLimit_inj
  have hu : IsRecord "at://a/b/c" :=
    ⟨⟨"a", "b", "c"⟩, RecordUri.parse_eq_ok_iff.2 ⟨rfl, by decide, by decide, by decide⟩⟩
  have hsub : ∀ b ∈ bs, ∀ ev ∈ b.events, IsRecord ev.subject := by
    simp only [bs, List.forall_mem_cons, List.not_mem_nil, false_imp_iff, implies_true, and_true]
    exact ⟨hu, hu⟩
  have he : e.counters = Memory.store := rfl
  have he' : e'.counters = Relational.store := rfl
  obtain ⟨hmemory, hrelational⟩ := summary_nested hsub he he' hdistinct hdistinct' ()
  let s : Summary := .ofAnswers "at://a/b/c" (Account.count
    (fun k => if k = .views then 2 else 0) (fun _ => 0) fun w => if w = .month then 2 else 0)
  have hs : e.summary 864000000 "at://a/b/c" (e.run bs (Engine.start ())).counters = .ok s := by
    unfold e bs s
    decide +kernel
  have hs' : e'.summary 864000000 "at://a/b/c" (e'.run bs ⟨.empty, (), 0⟩).counters = .ok s := by
    unfold e' bs s
    decide +kernel
  exact ⟨he, he', hdistinct, hdistinct', hsub,
    ⟨s, hs, (hmemory 864000000 "at://a/b/c").1 s hs, rfl⟩,
    ⟨s, hs', (hrelational 864000000 "at://a/b/c").1 s hs', rfl⟩⟩

/-- After two stays of the greatest length, the relations have no summary of their subject. -/
example :
    let e : Engine Relational Unit := .withUsualLimit Relational.store none
    let stay : Event := .dwell "at://a/b/c" (Word.greatest 63)
    e.summary 0 "at://a/b/c" (e.run [⟨0, [stay, stay]⟩] ⟨.empty, (), 0⟩).counters =
      .error (.transient (.store .notInteger)) := by
  decide +kernel

end PaperIndex.Metrics
