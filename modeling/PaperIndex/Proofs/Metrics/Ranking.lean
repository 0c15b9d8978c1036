import PaperIndex.Proofs.Metrics.Nesting
import PaperIndex.Proofs.Metrics.Reads
import PaperIndex.Proofs.Sorting

/-! # The ranking of a window

The subjects whose summaries have views within a window, each with their number, form one list in
strict order: the greatest number first, and then by subject. After requests about records, every
answer about the window is the start of this list, as long as its limit allows (`trending_ranked`).

A ranking does not read summaries. It scans for the windows that are live, asks for each of them,
and sorts the counts that are not zero (`trending_of_answers`). That no subject is missed or made up
follows from what stands under the keys of the windows (`viewed_of_live`). -/

namespace PaperIndex.Metrics

open Counter (Memory)

/-- The views within a window. -/
def Summary.within (s : Summary) : Window → Nat
  | .day => s.viewsOfDay
  | .week => s.viewsOfWeek
  | .month => s.viewsOfMonth

theorem Summary.within_ofAnswers (uri : String) (n : Account → Nat) (w : Window) :
    (Summary.ofAnswers uri n).within w = n (.window w) := by
  cases w <;> rfl

/-! ### The order of a ranking -/

/-- An item comes before another one in a ranking. -/
def Outranks (a b : Trend) : Prop := b.score < a.score ∨ a.score = b.score ∧ a.uri < b.uri

theorem trendOrder_iff (a b : Trend) : trendOrder a b = true ↔
    OrderDual.toDual a.score < OrderDual.toDual b.score ∨
      OrderDual.toDual a.score = OrderDual.toDual b.score ∧ a.uri ≤ b.uri := by
  simp [trendOrder]

/-! ### The list of a ranking -/

/-- The subjects whose counts are not zero, with their counts. -/
def trendsOf (n : String → Int) (uris : List String) : List Trend :=
  uris.filterMap fun u => if 0 < n u then some ⟨u, (n u).toNat⟩ else none

/-- The same in the order of a ranking. -/
def rankingOf (n : String → Int) (uris : List String) : List Trend :=
  (trendsOf n uris).mergeSort trendOrder

/-- Counts that are put beside their subjects. -/
theorem zip_answers (n : String → Int) (uris : List String) :
    trendsBeside (uris.zip (uris.map n)) = trendsOf n uris := by
  unfold trendsBeside trendsOf
  induction uris with
  | nil => rfl
  | cons u uris ih => rw [List.map_cons, List.zip_cons_cons, List.filterMap_cons, ih,
      List.filterMap_cons]

section Ranking
variable (n : String → Int) (uris : List String)

theorem mem_rankingOf {t : Trend} :
    t ∈ rankingOf n uris ↔ t.uri ∈ uris ∧ 0 < n t.uri ∧ t.score = (n t.uri).toNat := by
  unfold rankingOf trendsOf
  rw [List.mem_mergeSort, List.mem_filterMap]
  constructor
  · rintro ⟨u, hu, ht⟩
    split at ht
    · next hpos =>
      cases ht
      exact ⟨hu, hpos, rfl⟩
    · cases ht
  · rintro ⟨hu, hpos, hscore⟩
    refine ⟨t.uri, hu, ?_⟩
    rw [if_pos hpos, ← hscore]

theorem sublist_uris_trendsOf : ((trendsOf n uris).map Trend.uri).Sublist uris := by
  unfold trendsOf
  induction uris with
  | nil => exact List.Sublist.slnil
  | cons u uris ih =>
    rw [List.filterMap_cons]
    by_cases hpos : 0 < n u
    · rw [if_pos hpos]
      exact ih.cons_cons u
    · rw [if_neg hpos]
      exact ih.cons u

variable {uris}

theorem pairwise_rankingOf (hnodup : uris.Nodup) : (rankingOf n uris).Pairwise Outranks :=
  pairwise_twoKeys trendOrder_iff (hnodup.sublist (sublist_uris_trendsOf n uris))

end Ranking

section Store
variable {ς : Type} {e : Engine Memory ς} (he : e.counters = Memory.store) {now : Int} {w : Window}
  {m : Memory}
include he

/-- **A ranking** in terms of the answers about the windows: whatever its limit, it is the start of
one list. -/
theorem trending_of_answers {n : String → Int}
    (hn : ∀ u, m.answer now ((Account.window w).query now u) = .ok (n u)) :
    ∃ uris : List String, uris.Nodup ∧
      (∀ u, u ∈ uris ↔ (m.live? now ((Account.window w).key u)).isSome = true) ∧
      ∀ k, 0 < k → k ≤ e.maxTrending → e.trending now w k m = .ok ((rankingOf n uris).take k) := by
  obtain ⟨keys, hscan, hnodup, hlisted⟩ := exists_rests_of_scan he (Keys.windowLead w) now m
  generalize huris : keys.filterMap (Text.after? (Keys.windowLead w)) = uris at hnodup hlisted
  refine ⟨uris, hnodup, hlisted, fun k hpos hmax => ?_⟩
  have hread : e.counters.read (uris.map fun u => windowQuery now u w) now m =
      .ok (uris.map n) := by
    rw [he]
    refine Memory.read_eq_ok_iff.2 ?_
    rw [List.forall₂_map_left_iff, List.forall₂_map_right_iff, List.forall₂_same]
    exact fun u _ => hn u
  rw [trending_of_scan hpos hmax hscan huris, hread]
  cases uris with
  | nil => simp [rankingOf, trendsOf]
  | cons u uris =>
    exact congrArg (fun ts : List Trend => Except.ok ((ts.mergeSort trendOrder).take k))
      (zip_answers n (u :: uris))

end Store

/-! ### After requests about records -/

/-- Nothing with the label of a window in front has been viewed, if all events are about records. -/
theorem about_label_eq_nil {log : List Occurrence}
    (hlog : ∀ o ∈ log, IsRecord o.event.subject) (w : Window) (u : String) :
    about .view (w.label ++ ":" ++ u) log = [] := by
  by_contra hviewed
  exact not_extends_of_isRecord (isRecord_of_about hlog hviewed) u (.inl ⟨w, rfl⟩)

section Records
variable {ς : Type} {e : Engine Memory ς} (he : e.counters = Memory.store) {bs : List Batch}
  (hsub : ∀ b ∈ bs, ∀ ev ∈ b.events, IsRecord ev.subject) (summaries : ς)
include he hsub

/-- A subject whose window is live has been viewed. -/
theorem viewed_of_live {now : Int} {w : Window} {u : String}
    (h : ((e.run bs (Engine.start summaries)).counters.live? now
      ((Account.window w).key u)).isSome = true) :
    about .view u (e.log bs (Engine.start summaries)) ≠ [] := by
  obtain ⟨entry, hentry⟩ := Option.isSome_iff_exists.1 h
  have hfind := (Option.filter_eq_some_iff.1 hentry).1
  have hviews := viewsEntry_run he bs summaries (w.label ++ ":" ++ u)
  rw [← key_window, hfind] at hviews
  cases hviews with
  | tally n hv => exact absurd (about_label_eq_nil (fun o => isRecord_of_mem_log hsub e) w u) hv
  | window t w' u' last hv hlabel hlast =>
    obtain ⟨-, rfl⟩ := label_inj hlabel
    rintro hnil
    rw [hnil] at hlast
    cases hlast

/-- Every window can be asked for. -/
theorem exists_answer_of_records (now : Int) (w : Window) (u : String) :
    ∃ n, (e.run bs (Engine.start summaries)).counters.answer now
      ((Account.window w).query now u) = .ok n := by
  rw [exists_answer_window_iff he]
  exact about_label_eq_nil (fun o => isRecord_of_mem_log hsub e) w u

/-- **The items of a ranking** are the subjects whose summaries have views within the window, with
their numbers. -/
theorem mem_rankingOf_iff_summary {now : Int} {w : Window} {n : String → Int}
    (hn : ∀ u, (e.run bs (Engine.start summaries)).counters.answer now
      ((Account.window w).query now u) = .ok (n u)) {uris : List String}
    (hlisted : ∀ u, u ∈ uris ↔ ((e.run bs (Engine.start summaries)).counters.live? now
      ((Account.window w).key u)).isSome = true) (t : Trend) :
    t ∈ rankingOf n uris ↔ 0 < t.score ∧
      ∃ s, e.summary now t.uri (e.run bs (Engine.start summaries)).counters = .ok s ∧
        s.within w = t.score := by
  have hwithin : ∀ {s}, e.summary now t.uri (e.run bs (Engine.start summaries)).counters = .ok s →
      s.within w = (n t.uri).toNat := by
    intro s hs
    obtain ⟨n', hn', rfl⟩ := (summary_eq_ok_iff (answersBy_memory he)).1 hs
    rw [Summary.within_ofAnswers, Except.ok.inj ((hn' (.window w)).symm.trans (hn t.uri))]
  rw [mem_rankingOf, hlisted]
  constructor
  · rintro ⟨hlive, hpos, hscore⟩
    -- A subject that has been viewed is a record, and so has a summary.
    have hrecord := isRecord_of_about (fun o => isRecord_of_mem_log hsub e)
      (viewed_of_live he hsub summaries hlive)
    obtain ⟨s, hs, -⟩ := exists_summary_of_run he hsub hrecord summaries now
    exact ⟨by omega, s, hs, (hwithin hs).trans hscore.symm⟩
  · rintro ⟨hpos, s, hs, hscore⟩
    have hcount := (hwithin hs).symm.trans hscore
    refine ⟨?_, by omega, hcount.symm⟩
    by_contra hdead
    -- A window that is not live has no views.
    have hnone : (e.run bs (Engine.start summaries)).counters.live? now
        ((Account.window w).key t.uri) = none := by simpa using hdead
    have hzero := hn t.uri
    rw [Memory.answer, Account.key_query, hnone] at hzero
    rw [← Except.ok.inj hzero] at hcount
    exact hpos.ne hcount

end Records

/-- **A ranking is the true ranking.** After every sequence of requests about records, at whatever
instants, and for every instant and window, there is one list of all subjects whose summaries have
views within the window, each with their number, in strict order. Every ranking is the start of this
list, as long as its limit allows, so one with a smaller limit is the start of one with a greater
limit. -/
theorem trending_ranked {ς : Type} {e : Engine Memory ς} (he : e.counters = Memory.store)
    {qs : List (Int × Request)}
    (hsub : ∀ b ∈ batchesOf qs, ∀ ev ∈ b.events, IsRecord ev.subject) (summaries : ς) (now : Int)
    (w : Window) :
    let m := (e.served qs (Engine.start summaries)).counters
    ∃ ranking : List Trend,
      (∀ t, t ∈ ranking ↔
        0 < t.score ∧ ∃ s, e.summary now t.uri m = .ok s ∧ s.within w = t.score) ∧
      ranking.Pairwise Outranks ∧
      (∀ k, 0 < k → k ≤ e.maxTrending → e.trending now w k m = .ok (ranking.take k)) ∧
      ∀ k k', 0 < k → k ≤ k' → k' ≤ e.maxTrending →
        ∃ ts ts', e.trending now w k m = .ok ts ∧ e.trending now w k' m = .ok ts' ∧ ts <+: ts' := by
  intro m
  have hm : m = (e.run (batchesOf qs) (Engine.start summaries)).counters :=
    e.counters_served qs (Engine.start summaries)
  choose n hn using exists_answer_of_records he hsub summaries now w
  obtain ⟨uris, hnodup, hlisted, htrending⟩ := trending_of_answers he hn
  rw [hm]
  refine ⟨rankingOf n uris, mem_rankingOf_iff_summary he hsub summaries hn hlisted,
    pairwise_rankingOf n hnodup, htrending, fun k k' hpos hle hmax => ?_⟩
  exact ⟨_, _, htrending k hpos (hle.trans hmax), htrending k' (hpos.trans_le hle) hmax,
    List.take_prefix_take_left hle⟩

/-- Four records, of which one was viewed a day ago, one twice since, and two once. -/
theorem trending_ranked_ties :
    let e : Engine Memory SinkMemory := .withUsualLimit Memory.store (some SinkMemory.sink)
    let uri (rkey : String) : String := "at://a/c/" ++ rkey
    let qs : List (Int × Request) :=
      [(0, .record [.view (uri "1") none]),
       (86400000, .record [.view (uri "4") none, .view (uri "3") none, .view (uri "2") none]),
       (86400001, .flush), (86400002, .record [.view (uri "4") none])]
    let m := (e.served qs (Engine.start .empty)).counters
    let count (rkey : String) : Option Nat :=
      (e.summary 86400002 (uri rkey) m).toOption.map (·.within .day)
    e.counters = Memory.store ∧ (∀ b ∈ batchesOf qs, ∀ ev ∈ b.events, IsRecord ev.subject) ∧
      ["1", "2", "3", "4"].map count = [some 0, some 1, some 1, some 2] ∧
      0 < 2 ∧ 2 ≤ 3 ∧ 3 ≤ e.maxTrending ∧
      ∃ ranking : List Trend,
        (∀ t, t ∈ ranking ↔ 0 < t.score ∧
          ∃ s, e.summary 86400002 t.uri m = .ok s ∧ s.within .day = t.score) ∧
        ranking.Pairwise Outranks ∧
        (⟨uri "4", 2⟩ ∈ ranking ∧ ⟨uri "3", 1⟩ ∈ ranking ∧ ⟨uri "2", 1⟩ ∈ ranking) ∧
        e.trending 86400002 .day 3 m = .ok (ranking.take 3) ∧
        ∃ ts ts', e.trending 86400002 .day 2 m = .ok ts ∧ e.trending 86400002 .day 3 m = .ok ts' ∧
          ts <+: ts' := by
  intro e uri qs m count
  have hrecord : ∀ {rkey : String}, rkey ≠ "" ∧ '/' ∉ rkey.toList → IsRecord (uri rkey) :=
    fun {rkey} h => isRecord_render (r := ⟨"a", "c", rkey⟩) ⟨by simp, by simp, h⟩
  have hsub : ∀ b ∈ batchesOf qs, ∀ ev ∈ b.events, IsRecord ev.subject := by
    simp only [batchesOf, qs, List.filterMap_cons, List.filterMap_nil, List.forall_mem_cons,
      List.not_mem_nil, false_imp_iff, implies_true, and_true]
    exact ⟨hrecord (by decide), ⟨hrecord (by decide), hrecord (by decide), hrecord (by decide)⟩,
      hrecord (by decide)⟩
  have hm : m = (e.run (batchesOf qs) (Engine.start .empty)).counters := e.counters_served qs _
  have hcounts : ["1", "2", "3", "4"].map count = [some 0, some 1, some 1, some 2] := by
    unfold count
    rw [hm]
    unfold qs e uri
    decide +kernel
  obtain ⟨ranking, hmem, hordered, htrending, hlimits⟩ :=
    trending_ranked (e := e) rfl hsub .empty 86400002 .day
  have hlisted : ∀ {rkey n}, 0 < n → count rkey = some n → ⟨uri rkey, n⟩ ∈ ranking := by
    intro rkey n hpos hcount
    refine (hmem _).2 ⟨hpos, ?_⟩
    obtain ⟨s, hs, hwithin⟩ := Option.map_eq_some_iff.1 hcount
    refine ⟨s, ?_, hwithin⟩
    change (e.summary 86400002 (uri rkey) m).toOption = some s at hs
    cases hsummary : e.summary 86400002 (uri rkey) m with
    | error err => rw [hsummary] at hs; cases hs
    | ok s' => rw [hsummary] at hs; cases hs; rfl
  obtain ⟨-, htwo, hthree, hfour⟩ :
      count "1" = some 0 ∧ count "2" = some 1 ∧ count "3" = some 1 ∧ count "4" = some 2 := by
    simpa only [List.map_cons, List.map_nil, List.cons.injEq, and_true] using hcounts
  exact ⟨rfl, hsub, hcounts, by decide, by decide, by decide, ranking, hmem, hordered,
    ⟨hlisted (by decide) hfour, hlisted (by decide) hthree, hlisted (by decide) htwo⟩,
    htrending 3 (by decide) (by decide), hlimits 2 3 (by decide) (by decide) (by decide)⟩

end PaperIndex.Metrics
