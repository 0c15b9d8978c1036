import PaperIndex.Proofs.Metrics.Reads

/-! # Answers that are cut short

A store owes one value for each question of a batch. Three requests ask one batch each
(`Engine.Asks`), and they differ in what they make of fewer values than that:

* a summary counts the values and fails, telling how many there are (`summary_of_short`);
* a number of views is then 0 (`viewCount_of_short`);
* a ranking is the one of the first subjects, as many as there are values (`trending_of_short`).

So a short answer becomes an outage exactly if a summary was requested (`short_answer_outage`). -/

namespace PaperIndex.Metrics

open Counter (Memory Query)

namespace Engine

variable {σ ς : Type}

/-- The batch of questions of a request that asks just one. A ranking asks for the subjects whose
windows are found, provided that its limit is allowed. -/
inductive Asks (e : Engine σ ς) (now : Int) (counters : σ) : Request → List Query → Prop
  | summary (uri : String) : Asks e now counters (.summary uri) (summaryQueries now uri)
  | viewCount (uri : String) : Asks e now counters (.viewCount uri) [.tally (Keys.views uri)]
  | trending {w : Window} {limit : Nat} {keys uris : List String} (hpos : 0 < limit)
    (hmax : limit ≤ e.maxTrending)
    (hscan : e.counters.scan (Keys.windowLead w) now counters = .ok keys)
    (huris : keys.filterMap (Text.after? (Keys.windowLead w)) = uris) :
    Asks e now counters (.trending w limit) (uris.map fun uri => windowQuery now uri w)

/-- **A request is answered short**: its batch has fewer values than questions. -/
structure AnsweredShort (e : Engine σ ς) (now : Int) (counters : σ) (q : Request)
    (qs : List Query) (ns : List Int) : Prop where
  asks : e.Asks now counters q qs
  read : e.counters.read qs now counters = .ok ns
  short : ns.length < qs.length

end Engine

section Requests
variable {σ ς : Type} {e : Engine σ ς} {now : Int} {counters : σ} {qs : List Query} {ns : List Int}

/-- A summary is made of as many values as there are questions. -/
theorem summaryOf_of_short (now : Int) (uri : String) {ns : List Nat}
    (hshort : ns.length < (summaryQueries now uri).length) : summaryOf uri ns = none := by
  unfold summaryOf
  split
  · exact absurd hshort (lt_irrefl _)
  · rfl

/-- **A summary** that is answered short is an outage. -/
theorem summary_of_short {uri : String} (h : e.AnsweredShort now counters (.summary uri) qs ns) :
    e.summary now uri counters = .error (.transient (.shortAnswer ns.length qs.length)) := by
  obtain ⟨hasks, hread, hshort⟩ := h
  cases hasks with
  | summary =>
    have hnone : summaryOf uri (ns.map Int.toNat) = none :=
      summaryOf_of_short now uri (by rwa [List.length_map])
    unfold Engine.summary
    simp only [hread, stored, Except.mapError, bind, Except.bind, hnone]

/-- **A number of views** that is answered short is shown as zero. -/
theorem viewCount_of_short {uri : String}
    (h : e.AnsweredShort now counters (.viewCount uri) qs ns) :
    e.viewCount now uri counters = .ok 0 := by
  obtain ⟨hasks, hread, hshort⟩ := h
  cases hasks with
  | viewCount =>
    have hnone : ns = [] := List.length_eq_zero_iff.1 (Nat.lt_one_iff.1 hshort)
    unfold Engine.viewCount
    rw [hread, hnone]
    rfl

/-- Only as many subjects have a value beside them as there are values. -/
theorem zip_take_length (uris : List String) (ns : List Int) :
    uris.zip ns = (uris.take ns.length).zip ns := by
  induction ns generalizing uris with
  | nil => rw [List.zip_nil_right, List.zip_nil_right]
  | cons n ns ih =>
    cases uris with
    | nil => rfl
    | cons uri uris =>
      rw [List.length_cons, List.take_succ_cons, List.zip_cons_cons, List.zip_cons_cons, ih]

/-- **A ranking** that is answered short is shown for the subjects that have a value. -/
theorem trending_of_short {w : Window} {limit : Nat}
    (h : e.AnsweredShort now counters (.trending w limit) qs ns) :
    ∃ uris : List String, qs = uris.map (fun uri => windowQuery now uri w) ∧
      e.trending now w limit counters = .ok
        (((trendsBeside ((uris.take ns.length).zip ns)).mergeSort trendOrder).take limit) := by
  obtain ⟨hasks, hread, hshort⟩ := h
  cases hasks with
  | @trending _ _ keys uris hpos hmax hscan huris =>
    have hsome : ¬uris.isEmpty = true := by
      intro hempty
      rw [List.isEmpty_iff.1 hempty] at hshort
      exact absurd hshort (Nat.not_lt_zero _)
    refine ⟨uris, rfl, ?_⟩
    rw [trending_of_scan hpos hmax hscan huris, if_neg hsome, hread, ← zip_take_length]
    rfl

/-- A request that is answered short is one of the three that ask a batch. -/
theorem cases_of_short {q : Request} (h : e.AnsweredShort now counters q qs ns) :
    (∃ uri, q = .summary uri) ∨ (∃ uri, q = .viewCount uri) ∨ ∃ w limit, q = .trending w limit := by
  cases h.asks with
  | summary uri => exact .inl ⟨uri, rfl⟩
  | viewCount uri => exact .inr (.inl ⟨uri, rfl⟩)
  | trending => exact .inr (.inr ⟨_, _, rfl⟩)

/-- **A short answer becomes an outage** exactly if a summary was requested. A number of views is then
shown as zero, and a ranking as the one of the first subjects, as many as there are values. -/
theorem short_answer_outage {q : Request} {st : State σ ς}
    (h : e.AnsweredShort now st.counters q qs ns) :
    ((∃ cause, (e.serve now q st).1 = .error (.transient cause)) ↔ ∃ uri, q = .summary uri) ∧
      (∀ uri, q = .summary uri →
        (e.serve now q st).1 = .error (.transient (.shortAnswer ns.length qs.length))) ∧
      (∀ uri, q = .viewCount uri → (e.serve now q st).1 = .ok (.count 0)) ∧
      ∀ w limit, q = .trending w limit →
        ∃ uris : List String, qs = uris.map (fun uri => windowQuery now uri w) ∧
          (e.serve now q st).1 = .ok (.trends
            (((trendsBeside ((uris.take ns.length).zip ns)).mergeSort trendOrder).take limit)) := by
  have hsummary : ∀ uri, q = .summary uri →
      (e.serve now q st).1 = .error (.transient (.shortAnswer ns.length qs.length)) := by
    rintro uri rfl
    exact congrArg (Except.map Reply.summary) (summary_of_short h)
  have hcount : ∀ uri, q = .viewCount uri → (e.serve now q st).1 = .ok (.count 0) := by
    rintro uri rfl
    exact congrArg (Except.map Reply.count) (viewCount_of_short h)
  have htrending : ∀ w limit, q = .trending w limit →
      ∃ uris : List String, qs = uris.map (fun uri => windowQuery now uri w) ∧
        (e.serve now q st).1 = .ok (.trends
          (((trendsBeside ((uris.take ns.length).zip ns)).mergeSort trendOrder).take limit)) := by
    rintro w limit rfl
    obtain ⟨uris, hqs, hranking⟩ := trending_of_short h
    exact ⟨uris, hqs, congrArg (Except.map Reply.trends) hranking⟩
  refine ⟨⟨?_, ?_⟩, hsummary, hcount, htrending⟩
  · rintro ⟨cause, hcause⟩
    rcases cases_of_short h with hq | ⟨uri, hq⟩ | ⟨w, limit, hq⟩
    · exact hq
    · rw [hcount uri hq] at hcause
      cases hcause
    · obtain ⟨uris, -, hranking⟩ := htrending w limit hq
      rw [hranking] at hcause
      cases hcause
  · rintro ⟨uri, hq⟩
    exact ⟨_, hsummary uri hq⟩

end Requests

/-! ### A store that loses values -/

/-- The engine in memory with a store that loses the last value of each answer. -/
def forgetful : Engine Memory SinkMemory :=
  .withUsualLimit (Memory.store.failing [.lastAnswer]) none

/-- The state after one view of each of two subjects. -/
def twoViewed : State Memory SinkMemory :=
  (forgetful.record 0 [.view "at://a/c/1" none, .view "at://a/c/2" none] (Engine.start .empty)).2

theorem scan_twoViewed : Memory.scan (Keys.windowLead .day) 0 twoViewed.counters =
    .ok ["views:24h:at://a/c/1", "views:24h:at://a/c/2"] := by
  have hsorted : (["views:24h:at://a/c/1", "views:24h:at://a/c/2"] : List String).Pairwise
      fun a b => decide (a ≤ b) = true := by decide +kernel
  exact congrArg Except.ok (List.mergeSort_of_pairwise hsorted)

theorem short_trending : forgetful.AnsweredShort 0 twoViewed.counters (.trending .day 10)
    (["at://a/c/1", "at://a/c/2"].map fun uri => windowQuery 0 uri .day) [1] where
  asks := .trending (by decide) (by decide) scan_twoViewed (by decide +kernel)
  read := by decide +kernel
  short := by decide

theorem short_viewCount : forgetful.AnsweredShort 0 twoViewed.counters (.viewCount "at://a/c/1")
    [.tally (Keys.views "at://a/c/1")] [] where
  asks := .viewCount _
  read := by decide +kernel
  short := by decide

/-- A summary of which one value is lost is refused, and a ranking of which one is lost is not. -/
theorem short_answer_outage_forgetful :
    let uri := "at://a/c/1"
    forgetful.AnsweredShort 0 twoViewed.counters (.summary uri) (summaryQueries 0 uri)
        [1, 0, 0, 0, 0, 0, 0, 0, 1, 1] ∧
      (forgetful.serve 0 (.summary uri) twoViewed).1 =
        .error (.transient (.shortAnswer 10 11)) ∧
      forgetful.AnsweredShort 0 twoViewed.counters (.trending .day 10)
        ([uri, "at://a/c/2"].map fun uri => windowQuery 0 uri .day) [1] ∧
      ¬∃ cause, (forgetful.serve 0 (.trending .day 10) twoViewed).1 =
        .error (.transient cause) := by
  intro uri
  have hsummary : forgetful.AnsweredShort 0 twoViewed.counters (.summary uri)
      (summaryQueries 0 uri) [1, 0, 0, 0, 0, 0, 0, 0, 1, 1] :=
    ⟨.summary uri, by decide +kernel, by decide⟩
  refine ⟨hsummary, (short_answer_outage hsummary).2.1 uri rfl, short_trending, fun hcause => ?_⟩
  obtain ⟨uri', hq⟩ := (short_answer_outage short_trending).1.1 hcause
  cases hq

/-- In a state with two viewed subjects, a short answer makes a number of views zero and takes one
subject out of a ranking. A store that answers in full tells one view and two subjects. -/
theorem short_answers_shown :
    let whole : Engine Memory SinkMemory := .withUsualLimit Memory.store none
    let views : Request := .viewCount "at://a/c/1"
    let ranking : Request := .trending .day 10
    forgetful.Reachable (Engine.start .empty) twoViewed ∧
      (∃ qs ns, forgetful.AnsweredShort 0 twoViewed.counters views qs ns) ∧
      (whole.serve 0 views twoViewed).1 = .ok (.count 1) ∧
      (forgetful.serve 0 views twoViewed).1 = .ok (.count 0) ∧
      (∃ qs ns, forgetful.AnsweredShort 0 twoViewed.counters ranking qs ns) ∧
      (whole.serve 0 ranking twoViewed).1 =
        .ok (.trends [⟨"at://a/c/1", 1⟩, ⟨"at://a/c/2", 1⟩]) ∧
      (forgetful.serve 0 ranking twoViewed).1 = .ok (.trends [⟨"at://a/c/1", 1⟩]) := by
  intro whole views ranking
  have huris : ["views:24h:at://a/c/1", "views:24h:at://a/c/2"].filterMap
      (Text.after? (Keys.windowLead .day)) = ["at://a/c/1", "at://a/c/2"] := by decide +kernel
  have hranked : ([⟨"at://a/c/1", 1⟩, ⟨"at://a/c/2", 1⟩] : List Trend).Pairwise
      fun a b => trendOrder a b = true := by decide +kernel
  have hall : whole.trending 0 .day 10 twoViewed.counters =
      .ok [⟨"at://a/c/1", 1⟩, ⟨"at://a/c/2", 1⟩] := by
    have hread : whole.counters.read (["at://a/c/1", "at://a/c/2"].map fun uri =>
        windowQuery 0 uri .day) 0 twoViewed.counters = .ok [1, 1] := by decide +kernel
    rw [trending_of_scan (by decide) (by decide) scan_twoViewed huris, hread]
    exact congrArg (fun ts : List Trend => Except.ok (ts.take 10))
      (List.mergeSort_of_pairwise hranked)
  have hone : forgetful.trending 0 .day 10 twoViewed.counters = .ok [⟨"at://a/c/1", 1⟩] := by
    rw [trending_of_scan (by decide) (by decide) scan_twoViewed huris, short_trending.read]
    exact congrArg (fun ts : List Trend => Except.ok (ts.take 10))
      (List.mergeSort_singleton ⟨"at://a/c/1", 1⟩)
  exact ⟨.record 0 _ .start, ⟨_, _, short_viewCount⟩, by decide +kernel, by decide +kernel,
    ⟨_, _, short_trending⟩, congrArg (Except.map Reply.trends) hall,
    congrArg (Except.map Reply.trends) hone⟩

end PaperIndex.Metrics
