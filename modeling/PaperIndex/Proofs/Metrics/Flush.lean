import PaperIndex.Proofs.Metrics.Nesting
import PaperIndex.Proofs.Metrics.Reads
import PaperIndex.Proofs.Sorting

/-! # What a flush writes

A flush looks for its subjects among the keys of the counters. After requests about records it finds
those that have been viewed or downloaded, each of them once (`subjects_active`): a tally of views
is told from the windows under the same lead, and no key stands for a subject without an event
(`exists_change_of_present`). So it writes the summaries of these subjects, other than the refused
ones, and nothing else (`flush_active`). -/

namespace PaperIndex.Metrics

open Counter (Memory)

/-! ### Active subjects -/

/-- The subjects that have been viewed or downloaded. -/
def active (log : List Occurrence) : Finset String :=
  ((log.filter fun o => o.event.kind = .view ∨ o.event.kind = .download).map fun o =>
    o.event.subject).toFinset

theorem about_ne_nil_iff {kind : EventKind} {u : String} {log : List Occurrence} :
    about kind u log ≠ [] ↔ ∃ o ∈ log, o.event.kind = kind ∧ o.event.subject = u := by
  simp [about, List.filter_eq_nil_iff]

theorem mem_active {u : String} {log : List Occurrence} :
    u ∈ active log ↔ about .view u log ≠ [] ∨ about .download u log ≠ [] := by
  unfold active
  rw [List.mem_toFinset, List.mem_map, about_ne_nil_iff, about_ne_nil_iff, ← exists_or]
  refine exists_congr fun o => ?_
  rw [List.mem_filter, decide_eq_true_eq, and_assoc, or_and_right, and_or_left]

theorem isRecord_of_active {log : List Occurrence} {u : String}
    (hlog : ∀ o ∈ log, IsRecord o.event.subject) (h : u ∈ active log) : IsRecord u :=
  (mem_active.1 h).elim (isRecord_of_about hlog) (isRecord_of_about hlog)

/-! ### Keys of active subjects -/

theorem isWindowed_iff {u : String} :
    Keys.isWindowed u = true ↔ ∃ (w : Window) (v : String), u = w.label ++ ":" ++ v := by
  unfold Keys.isWindowed
  rw [List.any_eq_true]
  simp only [Text.hasLead_iff]
  exact exists_congr fun w => and_iff_right (by cases w <;> decide)

theorem key_downloads_iff {a : Account} {u v : String} :
    a.key u = (Account.tally .downloads).key v ↔ a = .tally .downloads ∧ u = v := by
  rw [Account.key_eq_key_iff]
  refine or_iff_left ?_
  rintro (⟨rest, hx, -⟩ | ⟨rest, hx, -⟩)
  · rcases extra?_eq_some_iff.1 hx with ⟨w, -, h, -⟩ | ⟨-, h, -⟩ <;> cases h
  · rcases extra?_eq_some_iff.1 hx with ⟨w, h, -, -⟩ | ⟨h, -, -⟩ <;> cases h

section Run
variable {ς : Type} {e : Engine Memory ς} (he : e.counters = Memory.store) {bs : List Batch}
  (summaries : ς)
include he

/-- **No key is made up**: what is present after a run has been changed by a recorded event. -/
theorem exists_change_of_present {key : String}
    (h : (e.run bs (Engine.start summaries)).counters.entries.find? key ≠ none) :
    ∃ o ∈ e.log bs (Engine.start summaries), ∃ a : Account,
      a.ops o.now (e.token o.number) o.event ≠ [] ∧ a.key o.event.subject = key := by
  revert h
  refine run_induction he (Q := fun log m => m.entries.find? key ≠ none → ∃ o ∈ log,
    ∃ a : Account, a.ops o.now (e.token o.number) o.event ≠ [] ∧ a.key o.event.subject = key)
    (fun h => absurd rfl h) ?_ bs
  intro b n log m ih _ hpresent
  by_cases hmem : key ∈ (batchOps b.now e.token n b.events).map Counter.Op.key
  · obtain ⟨op, hop, rfl⟩ := List.mem_map.1 hmem
    obtain ⟨⟨ev, i⟩, hev, hop⟩ := List.mem_flatMap.1 hop
    rw [Account.opsOf_eq] at hop
    obtain ⟨a, -, hop⟩ := List.mem_flatMap.1 hop
    exact ⟨⟨b.now, i, ev⟩, List.mem_append_right _ (List.mem_map_of_mem hev), a,
      List.ne_nil_of_mem hop, (Account.key_of_mem_ops hop).symm⟩
  · rw [Memory.find?_exec_of_not_mem _ m hmem] at hpresent
    obtain ⟨o, ho, hchange⟩ := ih hpresent
    exact ⟨o, List.mem_append_left _ ho, hchange⟩

variable (hsub : ∀ b ∈ bs, ∀ ev ∈ b.events, IsRecord ev.subject) (now : Int) (u : String)
include hsub

/-- A live key with the lead of views is the tally of a viewed subject, or a window. -/
theorem live_views_iff :
    (((e.run bs (Engine.start summaries)).counters.live? now
      ((Account.tally .views).key u)).isSome = true ∧ Keys.isWindowed u = false) ↔
      about .view u (e.log bs (Engine.start summaries)) ≠ [] := by
  have hviews := viewsEntry_run he bs summaries u
  unfold Memory.live?
  generalize (e.run bs (Engine.start summaries)).counters.entries.find? _ = slot at hviews
  cases hviews with
  | free hv hu => exact iff_of_false (fun h => Bool.false_ne_true h.1) fun hn => hn hv
  | tally n hv =>
    refine iff_of_true ⟨rfl, ?_⟩ hv
    by_contra hwindowed
    obtain ⟨w, v, hlabel⟩ := isWindowed_iff.1 (Bool.not_eq_false _ ▸ hwindowed)
    have hrecord := isRecord_of_about (fun o => isRecord_of_mem_log hsub e) hv
    exact not_extends_of_isRecord hrecord v (.inl ⟨w, hlabel⟩)
  | window t w v last hv hlabel hlast =>
    refine iff_of_false (fun h => ?_) fun hn => hn hv
    rw [isWindowed_iff.2 ⟨w, v, hlabel⟩] at h
    exact Bool.false_ne_true h.2.symm

/-- A key with the lead of downloads is live if its subject has been downloaded. -/
theorem live_downloads_iff :
    ((e.run bs (Engine.start summaries)).counters.live? now
      ((Account.tally .downloads).key u)).isSome = true ↔
      about .download u (e.log bs (Engine.start summaries)) ≠ [] := by
  constructor
  · intro hlive
    obtain ⟨entry, hentry⟩ := Option.isSome_iff_exists.1 hlive
    have hpresent := (Option.filter_eq_some_iff.1 hentry).1
    obtain ⟨o, ho, a, hops, hkey⟩ :=
      exists_change_of_present he summaries (hpresent ▸ Option.some_ne_none entry)
    obtain ⟨rfl, rfl⟩ := key_downloads_iff.1 hkey
    refine about_ne_nil_iff.2 ⟨o, ho, ?_, rfl⟩
    cases hev : o.event <;> rw [hev] at hops <;> first | rfl | exact absurd rfl hops
  · intro hdownloaded
    have hu := isRecord_of_about (fun o => isRecord_of_mem_log hsub e) hdownloaded
    have hcount : (gains Tally.downloads.amount u (e.log bs (Engine.start summaries))).sum =
        (about .download u (e.log bs (Engine.start summaries))).length :=
      sum_gains_eq_length (fun ev => by cases ev <;> rfl) u _
    have htally := (kept_tally e.token .downloads u).run_records he hsub hu summaries now
    rw [hcount] at htally
    unfold Memory.live?
    rcases htally with ⟨-, hzero⟩ | hsome
    · exact absurd (List.eq_nil_of_length_eq_zero hzero) hdownloaded
    · rw [hsome]
      rfl

/-- **The subjects of a flush** are the active ones, each of them once. -/
theorem subjects_active :
    ∃ uris, e.subjects now (e.run bs (Engine.start summaries)).counters = .ok uris ∧ uris.Nodup ∧
      uris.toFinset = active (e.log bs (Engine.start summaries)) := by
  obtain ⟨viewed, hviewed, -, hlivev⟩ := exists_rests_of_scan he Keys.viewsLead now
    (e.run bs (Engine.start summaries)).counters
  obtain ⟨downloaded, hdownloaded, -, hlived⟩ := exists_rests_of_scan he Keys.downloadsLead now
    (e.run bs (Engine.start summaries)).counters
  refine ⟨Counter.sortKeys (((viewed.filterMap (Text.after? Keys.viewsLead)).filter fun rest =>
    !Keys.isWindowed rest) ++ downloaded.filterMap (Text.after? Keys.downloadsLead)).eraseDups,
    ?_, ?_, ?_⟩
  · unfold Engine.subjects
    rw [hviewed, hdownloaded]
    rfl
  · exact (List.mergeSort_perm _ _).nodup_iff.2 (nodup_eraseDups _)
  · ext u
    rw [List.mem_toFinset, Counter.sortKeys, List.mem_mergeSort, List.mem_eraseDups,
      List.mem_append, List.mem_filter, Bool.not_eq_true', hlivev, hlived, mem_active]
    exact or_congr (live_views_iff he summaries hsub now u)
      (live_downloads_iff he summaries hsub now u)

end Run

/-! ### Writing summaries -/

/-- **The summaries of the subjects `us` have been written** from one state to another one, and
nothing else has changed. -/
structure Flushed {σ : Type} (e : Engine σ SinkMemory) (now : Int) (us : Finset String)
    (st st' : State σ SinkMemory) : Prop where
  counters : st'.counters = st.counters
  refused : st'.summaries.refused = st.summaries.refused
  written : ∀ u ∈ us, ∃ s, e.summary now u st.counters = .ok s ∧
    st'.summaries.summaries.find? u = some s
  kept : ∀ u ∉ us, st'.summaries.summaries.find? u = st.summaries.summaries.find? u

/-- The subjects whose summaries a sink takes. -/
def SinkMemory.takenOf (kept : SinkMemory) (us : Finset String) : Finset String :=
  us.filter fun u => u ∉ kept.refused

section Write
variable {σ : Type} {e : Engine σ SinkMemory} {now : Int} {st : State σ SinkMemory}

theorem flushed_refl : Flushed e now ∅ st st :=
  ⟨rfl, rfl, fun u hu => absurd hu (Finset.notMem_empty u), fun _ _ => rfl⟩

/-- What is written first stays, if it is not written again. -/
theorem Flushed.trans {us us' : Finset String} {st' st'' : State σ SinkMemory}
    (h : Flushed e now us st st') (h' : Flushed e now us' st' st'') (hdisjoint : Disjoint us us') :
    Flushed e now (us ∪ us') st st'' where
  counters := h'.counters.trans h.counters
  refused := h'.refused.trans h.refused
  written u hu := by
    rcases Finset.mem_union.1 hu with hu | hu
    · obtain ⟨s, hs, hfind⟩ := h.written u hu
      exact ⟨s, hs, (h'.kept u (Finset.disjoint_left.1 hdisjoint hu)).trans hfind⟩
    · exact h.counters ▸ h'.written u hu
  kept u hu := by
    rw [Finset.mem_union, not_or] at hu
    rw [h'.kept u hu.2, h.kept u hu.1]

/-- **One summary** is written, or it is refused and nothing changes. -/
theorem flushOne_flushed {u : String} {s : Summary} (hs : e.summary now u st.counters = .ok s)
    (huri : s.uri = u) :
    let r := e.flushOne SinkMemory.sink now st u
    (if r.1 then 1 else 0) = (st.summaries.takenOf {u}).card ∧
      Flushed e now (st.summaries.takenOf {u}) st r.2 := by
  intro r
  subst huri
  have hr : r = if s.uri ∈ st.summaries.refused then (false, st) else
      (true, { st with summaries.summaries := st.summaries.summaries.insert s.uri s }) := by
    unfold r Engine.flushOne SinkMemory.sink
    simp only [hs]
    split <;> rfl
  rw [hr, SinkMemory.takenOf, Finset.filter_singleton]
  by_cases hrefused : s.uri ∈ st.summaries.refused
  · rw [if_pos hrefused, if_neg (not_not_intro hrefused)]
    exact ⟨rfl, flushed_refl⟩
  · rw [if_neg hrefused, if_pos hrefused]
    refine ⟨rfl, rfl, rfl, fun u hu => ?_, fun u hu => ?_⟩
    · obtain rfl := Finset.mem_singleton.1 hu
      exact ⟨s, hs, (Table.find?_insert ..).trans (if_pos rfl)⟩
    · exact (Table.find?_insert ..).trans (if_neg fun h => hu (Finset.mem_singleton.2 h))

/-- **The summaries of distinct subjects** are written, other than those that are refused. -/
theorem flushAll_flushed {uris : List String} (hnodup : uris.Nodup)
    (hs : ∀ u ∈ uris, ∃ s, e.summary now u st.counters = .ok s ∧ s.uri = u) :
    let r := e.flushAll SinkMemory.sink now uris st
    r.1 = (st.summaries.takenOf uris.toFinset).card ∧
      Flushed e now (st.summaries.takenOf uris.toFinset) st r.2 := by
  induction uris generalizing st with
  | nil => exact ⟨rfl, flushed_refl⟩
  | cons u uris ih =>
    obtain ⟨hu, huris⟩ := List.nodup_cons.1 hnodup
    obtain ⟨⟨s, hsummary, huri⟩, hs⟩ := List.forall_mem_cons.1 hs
    obtain ⟨hcount, hone⟩ := flushOne_flushed hsummary huri
    have hrest : ∀ v ∈ uris, ∃ s,
        e.summary now v (e.flushOne SinkMemory.sink now st u).2.counters = .ok s ∧ s.uri = v := by
      rwa [hone.counters]
    obtain ⟨hcounts, hall⟩ := ih huris hrest
    have htaken : (e.flushOne SinkMemory.sink now st u).2.summaries.takenOf uris.toFinset =
        st.summaries.takenOf uris.toFinset := by
      rw [SinkMemory.takenOf, SinkMemory.takenOf, hone.refused]
    have hcons : st.summaries.takenOf (u :: uris).toFinset =
        st.summaries.takenOf {u} ∪ st.summaries.takenOf uris.toFinset := by
      rw [SinkMemory.takenOf, List.toFinset_cons, Finset.insert_eq, Finset.filter_union]
      rfl
    have hdisjoint : Disjoint (st.summaries.takenOf {u}) (st.summaries.takenOf uris.toFinset) :=
      Finset.disjoint_filter_filter (Finset.disjoint_singleton_left.2 fun h =>
        hu (List.mem_toFinset.1 h))
    rw [htaken] at hcounts hall
    rw [hcons]
    refine ⟨?_, hone.trans hall hdisjoint⟩
    rw [Finset.card_union_of_disjoint hdisjoint, ← hcount, ← hcounts, Engine.flushAll]
    dsimp only
    split <;> omega

end Write

/-- **A flush writes the active subjects.** After every sequence of requests about records, at
whatever instants, a flush at any instant succeeds, whatever summaries the sink keeps and whichever
it refuses. It counts the active subjects that are not refused, and leaves the summary of each of
them in the sink. The summaries of all other subjects, and the counters, are as before. Numbers are
not bounded here: the flush asks for words of 64 bits at every instant with a date
(`fits_bounds`). -/
theorem flush_active {e : Engine Memory SinkMemory} (he : e.counters = Memory.store)
    (hsink : e.sink = some SinkMemory.sink) {qs : List (Int × Request)}
    (hsub : ∀ b ∈ batchesOf qs, ∀ ev ∈ b.events, IsRecord ev.subject)
    (summaries kept : SinkMemory) (now : Int) :
    let st : State Memory SinkMemory :=
      { e.served qs (Engine.start summaries) with summaries := kept }
    let taken := kept.takenOf (active (e.log (batchesOf qs) (Engine.start summaries)))
    (e.flush now st).1 = .ok taken.card ∧ Flushed e now taken st (e.flush now st).2 := by
  intro st taken
  have hst : st.counters = (e.run (batchesOf qs) (Engine.start summaries)).counters :=
    e.counters_served qs (Engine.start summaries)
  obtain ⟨uris, hsubjects, hnodup, hactive⟩ := subjects_active he summaries hsub now
  have hs : ∀ u ∈ uris, ∃ s, e.summary now u st.counters = .ok s ∧ s.uri = u := by
    intro u hu
    have hrecord : IsRecord u := isRecord_of_active (fun o => isRecord_of_mem_log hsub e)
      (hactive ▸ List.mem_toFinset.2 hu)
    exact hst ▸ exists_summary_of_run he hsub hrecord summaries now
  obtain ⟨hcount, hflushed⟩ := flushAll_flushed hnodup hs
  rw [hactive] at hcount hflushed
  have hflush : e.flush now st = (.ok (e.flushAll SinkMemory.sink now uris st).1,
      (e.flushAll SinkMemory.sink now uris st).2) := by
    unfold Engine.flush
    rw [hsink, hst, hsubjects]
  rw [hflush]
  exact ⟨congrArg Except.ok hcount, hflushed⟩

/-- One record is viewed, one downloaded, one has a dwell time, and a viewed one with an old summary
is refused. -/
theorem flush_active_refused :
    let e : Engine Memory SinkMemory := .withUsualLimit Memory.store (some SinkMemory.sink)
    let uri (rkey : String) : String := "at://a/c/" ++ rkey
    let qs : List (Int × Request) :=
      [(0, .record [.view (uri "1") none, .view (uri "2") none, .dwell (uri "4") 5]), (1, .flush),
       (2, .record [.download (uri "3") none])]
    let old : Summary := .ofAnswers (uri "2") fun _ => 7
    let kept : SinkMemory := ⟨.ofRows [(uri "2", old)], [uri "2"]⟩
    let st : State Memory SinkMemory :=
      { e.served qs (Engine.start .empty) with summaries := kept }
    let found (rkey : String) : Option Summary :=
      (e.flush 3 st).2.summaries.summaries.find? (uri rkey)
    e.counters = Memory.store ∧ e.sink = some SinkMemory.sink ∧
      (∀ b ∈ batchesOf qs, ∀ ev ∈ b.events, IsRecord ev.subject) ∧ (e.flush 3 st).1 = .ok 2 ∧
      (∃ s, found "1" = some s ∧ s.totalViews = 1) ∧ found "2" = some old ∧
      (∃ s, found "3" = some s ∧ s.totalDownloads = 1) ∧ found "4" = none := by
  intro e uri qs old kept st found
  have hrecord : ∀ {rkey : String}, rkey ≠ "" ∧ '/' ∉ rkey.toList → IsRecord (uri rkey) :=
    fun {rkey} h => isRecord_render (r := ⟨"a", "c", rkey⟩) ⟨by simp, by simp, h⟩
  have hsub : ∀ b ∈ batchesOf qs, ∀ ev ∈ b.events, IsRecord ev.subject := by
    simp only [batchesOf, qs, List.filterMap_cons, List.filterMap_nil, List.forall_mem_cons,
      List.not_mem_nil, false_imp_iff, implies_true, and_true]
    exact ⟨⟨hrecord (by decide), hrecord (by decide), hrecord (by decide)⟩, hrecord (by decide)⟩
  have hst : st.counters = (e.run (batchesOf qs) (Engine.start .empty)).counters :=
    e.counters_served qs _
  have htaken : kept.takenOf (active (e.log (batchesOf qs) (Engine.start .empty))) =
      {uri "1", uri "3"} := by
    unfold qs kept e uri
    decide +kernel
  have htotals : (e.summary 3 (uri "1") st.counters).toOption.map Summary.totalViews = some 1 ∧
      (e.summary 3 (uri "3") st.counters).toOption.map Summary.totalDownloads = some 1 := by
    rw [hst]
    unfold qs e uri
    decide +kernel
  obtain ⟨hcount, hflushed⟩ := flush_active (e := e) rfl rfl hsub .empty kept 3
  rw [htaken] at hcount hflushed
  obtain ⟨s, hs, hfind⟩ := hflushed.written (uri "1") (by decide)
  obtain ⟨s', hs', hfind'⟩ := hflushed.written (uri "3") (by decide)
  rw [hs, hs'] at htotals
  refine ⟨rfl, rfl, hsub, hcount, ⟨s, hfind, Option.some.inj htotals.1⟩,
    (hflushed.kept (uri "2") (by decide)).trans ?_, ⟨s', hfind', Option.some.inj htotals.2⟩,
    (hflushed.kept (uri "4") (by decide)).trans ?_⟩
  · decide
  · decide

end PaperIndex.Metrics
