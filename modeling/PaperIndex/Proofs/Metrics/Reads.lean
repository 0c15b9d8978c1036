import PaperIndex.Proofs.Metrics.Entries
import PaperIndex.Proofs.Table

/-! # When counts can be read

A read fails as a whole when one of its keys holds a value of another kind than it asks for.
`reads_ok_iff` says which reads succeed after a run. -/

namespace PaperIndex.Metrics

open Account
open Counter (Memory Entry isLive)

/-- **A subject is hidden** at an instant if it has not been viewed and its views have the key of a
window that has not expired. -/
def Hidden (log : List Occurrence) (now : Int) (v : String) : Prop :=
  about .view v log = [] ∧ ∃ (w : Window) (u : String) (last : Occurrence),
    v = w.label ++ ":" ++ u ∧ (about .view u log).getLast? = some last ∧ now < last.now + w.span

/-! ### Reads of one store -/

section Entry
variable {v : String} {log : List Occurrence} {slot : Option Entry} (h : ViewsEntry v log slot)
  (now : Int)
include h

theorem ofKind_tally_iff :
    OfKind .tally (slot.filter fun entry => isLive now entry.expiry) ↔ ¬Hidden log now v := by
  cases h with
  | free hv hu =>
    refine iff_of_true (ofKind_none _) ?_
    rintro ⟨-, w, u, last, hlabel, hlast, -⟩
    rw [hu w u hlabel] at hlast
    cases hlast
  | tally n hv => exact iff_of_true (by rintro entry ⟨⟩; rfl) fun hidden => hv hidden.1
  | window t w u last hv hlabel hlast =>
    rw [Option.filter_some]
    by_cases hlive : now < last.now + w.span
    · have hshown : isLive now (some (last.now + w.span)) = true := by simpa [isLive] using hlive
      rw [if_pos hshown]
      refine iff_of_false (fun hkind => ?_) fun hn => hn ⟨hv, w, u, last, hlabel, hlast, hlive⟩
      cases hkind _ rfl
    · have hdead : ¬isLive now (some (last.now + w.span)) = true := by simpa [isLive] using hlive
      rw [if_neg hdead]
      refine iff_of_true (ofKind_none _) ?_
      rintro ⟨-, w', u', last', hlabel', hlast', hlive'⟩
      obtain ⟨rfl, rfl⟩ := label_inj (hlabel.symm.trans hlabel')
      rw [hlast] at hlast'
      cases hlast'
      exact hlive hlive'

theorem ofKind_scores_iff :
    OfKind .scores (slot.filter fun entry => isLive now entry.expiry) ↔ about .view v log = [] := by
  cases h with
  | free hv hu => exact iff_of_true (ofKind_none _) hv
  | tally n hv =>
    refine iff_of_false (fun hkind => ?_) hv
    cases hkind ⟨.tally n, none⟩ rfl
  | window t w u last hv hlabel hlast =>
    refine iff_of_true (fun entry hentry => ?_) hv
    cases (Option.filter_eq_some_iff.1 hentry).1
    rfl

end Entry

theorem exists_answer_query_iff {m : Memory} {now : Int} {a : Account} {v : String} :
    (∃ n, m.answer now (a.query now v) = .ok n) ↔ OfKind a.kind (m.live? now (a.key v)) := by
  rw [Memory.exists_answer_iff, key_query]
  cases a <;> exact Iff.rfl

/-- The subjects whose counts are not zero, from counts that stand beside them. -/
def trendsBeside (pairs : List (String × Int)) : List Trend :=
  pairs.filterMap fun r => if 0 < r.2 then some ⟨r.1, r.2.toNat⟩ else none

/-- A ranking within the limits asks for the windows that a scan has found. -/
theorem trending_of_scan {σ ς : Type} {e : Engine σ ς} {now : Int} {w : Window} {limit : Nat}
    (hpos : 0 < limit) (hmax : limit ≤ e.maxTrending) {counters : σ} {keys uris : List String}
    (hscan : e.counters.scan (Keys.windowLead w) now counters = .ok keys)
    (huris : keys.filterMap (Text.after? (Keys.windowLead w)) = uris) :
    e.trending now w limit counters =
      if uris.isEmpty then .ok []
      else (stored (e.counters.read (uris.map fun u => windowQuery now u w) now counters)).map
        fun counts => ((trendsBeside (uris.zip counts)).mergeSort trendOrder).take limit := by
  have hbounds : ¬(limit = 0 ∨ e.maxTrending < limit) := by omega
  subst huris
  unfold Engine.trending
  rw [if_neg hbounds]
  simp only [hscan]
  change (if _ then _ else _) = _
  split
  · rfl
  · cases e.counters.read _ now counters <;> rfl

section Reads
variable {ς : Type} {e : Engine Memory ς} (he : e.counters = Memory.store)
include he

theorem viewCount_ok_iff {now : Int} {v : String} {m : Memory} :
    (∃ n, e.viewCount now v m = .ok n) ↔
      ∃ n, m.answer now ((Account.tally .views).query now v) = .ok n := by
  constructor
  · rintro ⟨n, hn⟩
    unfold Engine.viewCount at hn
    rw [he] at hn
    cases hread : Memory.read [.tally (Keys.views v)] now m with
    | error cause =>
      have hstore : Memory.store.read [.tally (Keys.views v)] now m = .error cause := hread
      rw [hstore] at hn
      cases hn
    | ok ns => exact Memory.exists_read_iff.1 ⟨ns, hread⟩ _ List.mem_cons_self
  · rintro ⟨n, hn⟩
    exact ⟨_, viewCount_of_answer he hn⟩

theorem summary_ok_iff {now : Int} {v : String} {m : Memory} :
    (∃ s, e.summary now v m = .ok s) ↔
      ∀ a : Account, ∃ n, m.answer now (a.query now v) = .ok n := by
  simp only [summary_eq_ok_iff (answersBy_memory he)]
  constructor
  · rintro ⟨s, n, hn, -⟩ a
    exact ⟨n a, hn a⟩
  · intro h
    choose n hn using h
    exact ⟨_, n, hn, rfl⟩

/-- A scan for a lead finds each live key with the lead once. -/
theorem exists_rests_of_scan (lead : String) (now : Int) (m : Memory) :
    ∃ keys, e.counters.scan lead now m = .ok keys ∧ (keys.filterMap (Text.after? lead)).Nodup ∧
      ∀ u, u ∈ keys.filterMap (Text.after? lead) ↔ (m.live? now (lead ++ u)).isSome = true := by
  obtain ⟨keys, hkeys⟩ : ∃ keys, Memory.scan lead now m = .ok keys := ⟨_, rfl⟩
  have hmem : ∀ key, key ∈ keys ↔
      Text.hasLead lead key = true ∧ (m.live? now key).isSome = true := by
    intro key
    cases hkeys
    rw [Counter.sortKeys, List.mem_mergeSort, Memory.live?, Option.isSome_filter]
    exact Table.mem_keys_filter_iff (q := fun entry : Entry => isLive now entry.expiry)
  have hnodup : keys.Nodup := by
    cases hkeys
    exact (List.mergeSort_perm _ _).nodup_iff.2
      (m.entries.nodup.sublist (List.filter_sublist.map _))
  refine ⟨keys, he ▸ hkeys, hnodup.filterMap fun key key' u hu hu' => ?_, fun u => ?_⟩
  · rw [Option.mem_def, Text.after?_eq_some_iff] at hu hu'
    rw [hu, hu']
  · rw [List.mem_filterMap]
    constructor
    · rintro ⟨key, hkey, hafter⟩
      rw [Text.after?_eq_some_iff] at hafter
      subst hafter
      exact ((hmem _).1 hkey).2
    · intro hlive
      exact ⟨_, (hmem _).2 ⟨Text.hasLead_iff.2 ⟨u, rfl⟩, hlive⟩, Text.after?_eq_some_iff.2 rfl⟩

theorem trending_ok_iff {now : Int} {w : Window} {limit : Nat} (hpos : 0 < limit)
    (hmax : limit ≤ e.maxTrending) {m : Memory} :
    (∃ ts, e.trending now w limit m = .ok ts) ↔
      ∀ u, ∃ n, m.answer now ((Account.window w).query now u) = .ok n := by
  obtain ⟨keys, hscan, -, hlisted⟩ := exists_rests_of_scan he (Keys.windowLead w) now m
  rw [trending_of_scan hpos hmax hscan rfl]
  generalize keys.filterMap (Text.after? (Keys.windowLead w)) = uris at hlisted ⊢
  have hread : (∃ ns, e.counters.read (uris.map fun u => windowQuery now u w) now m = .ok ns) ↔
      ∀ u, ∃ n, m.answer now ((Account.window w).query now u) = .ok n := by
    rw [he]
    refine Memory.exists_read_iff.trans ?_
    rw [List.forall_mem_map]
    refine forall_congr' fun u => ⟨fun h => ?_, fun h _ => h⟩
    rw [exists_answer_query_iff]
    intro entry hentry
    have hu := (hlisted u).2 (Option.isSome_iff_exists.2 ⟨entry, hentry⟩)
    exact exists_answer_query_iff.1 (h hu) entry hentry
  rw [← hread]
  cases uris with
  | nil => exact iff_of_true ⟨_, rfl⟩ ⟨[], he ▸ rfl⟩
  | cons u uris =>
    cases e.counters.read ((u :: uris).map fun u => windowQuery now u w) now m with
    | error cause => exact iff_of_false nofun nofun
    | ok ns => exact iff_of_true ⟨_, rfl⟩ ⟨ns, rfl⟩

/-! ### Reads after a run -/

section Run
variable (bs : List Batch) (summaries : ς) (now : Int) (v : String)

theorem exists_answer_views_iff :
    (∃ n, (e.run bs (Engine.start summaries)).counters.answer now
      ((Account.tally .views).query now v) = .ok n) ↔
        ¬Hidden (e.log bs (Engine.start summaries)) now v := by
  rw [exists_answer_query_iff]
  exact ofKind_tally_iff (viewsEntry_run he bs summaries v) now

theorem exists_answer_window_iff (w : Window) :
    (∃ n, (e.run bs (Engine.start summaries)).counters.answer now
      ((Account.window w).query now v) = .ok n) ↔
        about .view (w.label ++ ":" ++ v) (e.log bs (Engine.start summaries)) = [] := by
  rw [exists_answer_query_iff, key_window]
  exact ofKind_scores_iff (viewsEntry_run he bs summaries _) now

theorem exists_answer_other {a : Account} (hviews : a ≠ .tally .views)
    (hwindow : ∀ w : Window, a ≠ .window w) :
    ∃ n, (e.run bs (Engine.start summaries)).counters.answer now (a.query now v) = .ok n := by
  rw [exists_answer_query_iff]
  intro entry hentry
  have hfind := (Option.filter_eq_some_iff.1 hentry).1
  refine ofKind_run (fun b u hkey => ?_) he bs summaries entry hfind
  exact kind_eq_of_key_eq hkey hviews hwindow

end Run

/-- **Which reads succeed after a run.** The views of a subject can be read exactly when it is not
hidden, its summary exactly when also none of its windows has become the tally of another subject,
and the ranking of a window exactly when no window of any subject has. -/
theorem reads_ok_iff (bs : List Batch) (summaries : ς) (now : Int) :
    let m := (e.run bs (Engine.start summaries)).counters
    let log := e.log bs (Engine.start summaries)
    (∀ v, (∃ n, e.viewCount now v m = .ok n) ↔ ¬Hidden log now v) ∧
      (∀ v, (∃ s, e.summary now v m = .ok s) ↔
        ¬Hidden log now v ∧ ∀ w : Window, about .view (w.label ++ ":" ++ v) log = []) ∧
      ∀ (w : Window) (limit : Nat), 0 < limit → limit ≤ e.maxTrending →
        ((∃ ts, e.trending now w limit m = .ok ts) ↔
          ∀ v, about .view (w.label ++ ":" ++ v) log = []) := by
  intro m log
  refine ⟨fun v => ?_, fun v => ?_, fun w limit hpos hmax => ?_⟩
  · exact (viewCount_ok_iff he).trans (exists_answer_views_iff he bs summaries now v)
  · have hwindows := forall_congr' fun w => exists_answer_window_iff he bs summaries now v w
    rw [summary_ok_iff he, ← exists_answer_views_iff he bs summaries now v, ← hwindows]
    constructor
    · intro h
      exact ⟨h _, fun w => h _⟩
    · rintro ⟨hviews, hwindow⟩ a
      by_cases ha : a = .tally .views
      · exact ha ▸ hviews
      by_cases hw : ∃ w : Window, a = .window w
      · obtain ⟨w, rfl⟩ := hw
        exact hwindow w
      -- No other account shares its key with an account of another kind.
      exact exists_answer_other he bs summaries now v ha fun w haw => hw ⟨w, haw⟩
  · rw [trending_ok_iff he hpos hmax]
    exact forall_congr' fun v => exists_answer_window_iff he bs summaries now v w

end Reads

/-- After a view of `x` all can be read but the views of `24h:x`, and these from a day later on. -/
theorem reads_ok_hidden_label :
    let e : Engine Memory Unit := .withUsualLimit Memory.store none
    let m := (e.run [⟨5, [.view "x" none]⟩] (Engine.start ())).counters
    e.counters = Memory.store ∧ 0 < 1 ∧ 1 ≤ e.maxTrending ∧ (∃ ts, e.trending 6 .day 1 m = .ok ts) ∧
      (∃ s, e.summary 6 "x" m = .ok s) ∧ (¬∃ n, e.viewCount 6 "24h:x" m = .ok n) ∧
      ∃ n, e.viewCount (5 + Window.day.span) "24h:x" m = .ok n := by
  intro e m
  have hlog : e.log [⟨5, [.view "x" none]⟩] (Engine.start ()) = [⟨5, 0, .view "x" none⟩] := by
    unfold e
    decide +kernel
  have hlast : (about .view "x" [⟨5, 0, .view "x" none⟩]).getLast? =
      some ⟨5, 0, .view "x" none⟩ := by
    decide +kernel
  have hlabelled : ∀ (w : Window) v,
      about .view (w.label ++ ":" ++ v) [⟨5, 0, .view "x" none⟩] = [] := by
    refine fun w v => List.filter_eq_nil_iff.2 fun o ho hv => ?_
    obtain rfl := List.mem_singleton.1 ho
    have hchars := congrArg String.toList (of_decide_eq_true hv).2
    cases w <;> simp [Event.subject, Window.label] at hchars
  obtain ⟨hviews, hsummary, htrending⟩ := reads_ok_iff (e := e) rfl [⟨5, [.view "x" none]⟩] () 6
  have hlater := (reads_ok_iff (e := e) rfl [⟨5, [.view "x" none]⟩] () (5 + Window.day.span)).1
  rw [hlog] at hviews hsummary htrending hlater
  refine ⟨rfl, by decide, by decide, (htrending .day 1 (by decide) (by decide)).2 (hlabelled .day),
    (hsummary "x").2 ⟨?_, fun w => hlabelled w "x"⟩, fun h => (hviews "24h:x").1 h ?_,
    (hlater "24h:x").2 ?_⟩
  · rintro ⟨hnone, -⟩
    rw [hnone] at hlast
    cases hlast
  · exact ⟨hlabelled .day "x", .day, "x", _, rfl, hlast, by decide⟩
  · rintro ⟨-, w, u, last, hlabel, hu, hlive⟩
    obtain ⟨rfl, rfl⟩ := label_inj (w := .day) (u := "x") hlabel
    rw [hlast] at hu
    cases hu
    exact lt_irrefl _ hlive

/-- A view of `24h:x` makes the summary of `x` and the ranking within a day fail. -/
theorem reads_fail_label_x :
    let e : Engine Memory Unit := .withUsualLimit Memory.store none
    let st : State Memory Unit := (e.record 0 [.view "24h:x" none] (Engine.start ())).2
    Text.isBlankText "24h:x" = false ∧
      (e.record 0 [.view "24h:x" none] (Engine.start ())).1 = .ok () ∧
      e.summary 0 "x" st.counters =
        .error (.transient (.store (.wrongKind "views:24h:x" .tally .scores))) ∧
      0 < 10 ∧ 10 ≤ e.maxTrending ∧ ¬∃ ts, e.trending 0 .day 10 st.counters = .ok ts := by
  intro e st
  have hanswer : st.counters.answer 0 ((Account.window .day).query 0 "x") =
      .error (.wrongKind "views:24h:x" .tally .scores) := by
    unfold st e
    decide +kernel
  refine ⟨by decide, ?_, ?_, by decide, by decide, fun htrending => ?_⟩
  · unfold e
    decide +kernel
  · unfold st e
    decide +kernel
  · obtain ⟨n, hn⟩ := (trending_ok_iff (e := e) rfl (by decide) (by decide)).1 htrending "x"
    rw [hanswer] at hn
    cases hn

end PaperIndex.Metrics
