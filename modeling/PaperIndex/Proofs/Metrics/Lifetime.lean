import Mathlib.Algebra.GroupWithZero.Nat
import PaperIndex.Proofs.Metrics.Answers
import PaperIndex.Proofs.Metrics.History
import PaperIndex.Proofs.Sketch.Canonical

/-! # Lifetime counts

The counts of a summary other than those of the windows never expire. After every run on the URIs of
records, by any clock, they are those of the recorded events about the subject (`summary_lifetime`):
the totals are numbers of events, and the unique counts are the sizes of the sets of hashed actors,
as far as a sketch can tell. The tallies and crowds of a subject are kept event by event
(`kept_tally`, `kept_crowd`); of the windows it matters here only that they stay windows
(`kept_scores`), so that the summary can be read. -/

namespace PaperIndex.Metrics

open Counter (Memory Entry Op applyAll)

/-- The hashes of the actors of the recorded events of a kind about a subject. -/
def actorHashes (kind : EventKind) (u : String) (log : List Occurrence) : Finset UInt64 :=
  (((about kind u log).filterMap fun o => o.event.actor?).map Sketch.hashOf).toFinset

/-- **The lifetime counts of a summary** are those of the recorded events about its subject. -/
structure CountsOf (u : String) (log : List Occurrence) (s : Summary) : Prop where
  uri : s.uri = u
  totalViews : s.totalViews = (about .view u log).length
  totalDownloads : s.totalDownloads = (about .download u log).length
  searchClicks : s.searchClicks = (about .searchClick u log).length
  searchDownloads : s.searchDownloads = (about .searchDownload u log).length
  dwellSamples : s.dwellSamples = (about .dwell u log).length
  averageDwell : s.averageDwell =
    if (about .dwell u log).length = 0 then none
    else some (((about .dwell u log).map fun o => o.event.millis).sum /
      (about .dwell u log).length)
  uniqueViews : s.uniqueViews = (Sketch.answered (actorHashes .view u log)).toNat
  uniqueDownloads : s.uniqueDownloads = (Sketch.answered (actorHashes .download u log)).toNat

/-- An entry that holds a tally for ever, or none while the tally is zero. -/
def IsTally (n : Nat) (slot : Option Entry) : Prop :=
  (slot = none ∧ n = 0) ∨ slot = some ⟨.tally n, none⟩

/-- An entry that holds the sketch of a set for ever, or none while the set is empty. -/
def IsCrowd (S : Finset UInt64) (slot : Option Entry) : Prop :=
  (slot = none ∧ S = ∅) ∨ slot = some ⟨.sketch (.ofSet S), none⟩

/-- An entry that holds scored members, if there is one. -/
def IsScores (slot : Option Entry) : Prop :=
  ∀ entry, slot = some entry → ∃ t, entry.value = .scores t

/-- What an account gains from each recorded event about a subject, in turn. -/
def gains {α : Type} (f : Event → Option α) (u : String) (log : List Occurrence) : List α :=
  log.filterMap fun o => if o.event.subject = u then f o.event else none

/-! ### Accounts that gain one item at most from an event -/

theorem gains_snoc {α : Type} (f : Event → Option α) (u : String) (log : List Occurrence)
    (o : Occurrence) : gains f u (log ++ [o]) =
      gains f u log ++ (if o.event.subject = u then f o.event else none).toList := by
  unfold gains
  rw [List.filterMap_append, List.filterMap_cons, List.filterMap_nil]
  cases (if o.event.subject = u then f o.event else none) <;> rfl

/-- **What an entry says of the gains** holds after every run if it holds at the start, the entry
does not lapse, and one operation for each gain keeps it. -/
theorem kept_gains {α : Type} {a : Account} {u : String} {f : Event → Option α}
    {Q : List α → Option Entry → Prop} (token : Nat → Window → String) (op : α → Op)
    (hops : ∀ now tok ev, ev.subject = u → a.ops now tok ev = (f ev).toList.map op)
    (hstart : Q [] none)
    (hlapse : ∀ {now xs slot}, Q xs slot →
      Q xs (slot.filter fun entry => Counter.isLive now entry.expiry))
    (hstep : ∀ {now x xs slot slot'}, Q xs slot → (op x).apply now slot = .ok slot' →
      Q (xs ++ [x]) slot') :
    Kept token a u (fun _ _ => True) fun _ _ log slot => Q (gains f u log) slot where
  start _ := hstart
  advance _ h := h
  lapse h := hlapse h
  step ev h hok := by
    rw [gains_snoc]
    simp only [Account.changes] at hok
    by_cases hs : ev.subject = u
    · rw [if_pos hs] at hok ⊢
      rw [hops _ _ ev hs] at hok
      cases hx : f ev with
      | none =>
        rw [hx] at hok
        cases hok
        rwa [Option.toList_none, List.append_nil]
      | some x =>
        rw [hx] at hok
        obtain ⟨slot₁, hop, hnil⟩ := Counter.applyAll_cons_eq_ok_iff.1 hok
        cases hnil
        exact hstep h hop
    · rw [if_neg hs] at hok ⊢
      cases hok
      rwa [Option.toList_none, List.append_nil]

theorem isTally_add {n d : Nat} {now : Int} {key : String} {slot slot' : Option Entry}
    (h : IsTally n slot) (hok : (Op.add key d).apply now slot = .ok slot') :
    IsTally (n + d) slot' := by
  obtain ⟨m, hm, -, rfl⟩ := Counter.apply_add_eq_ok_iff.1 hok
  refine .inr ?_
  rcases h with ⟨rfl, rfl⟩ | rfl
  · cases hm
    rfl
  · cases hm
    rfl

theorem kept_tally (token : Nat → Window → String) (k : Tally) (u : String) :
    Kept token (.tally k) u (fun _ _ => True) fun _ _ log slot =>
      IsTally (gains k.amount u log).sum slot := by
  refine kept_gains (Q := fun ns slot => IsTally ns.sum slot) token
    (fun d => .add ((Account.tally k).key u) d) ?_ (.inl ⟨rfl, rfl⟩) ?_ ?_
  · rintro now tok ev rfl
    rfl
  · rintro now ns slot (⟨rfl, hn⟩ | rfl)
    · exact .inl ⟨rfl, hn⟩
    · exact .inr rfl
  · intro now d ns slot slot' h hok
    rw [List.sum_append_nat, List.sum_singleton]
    exact isTally_add h hok

theorem isCrowd_observe {S : Finset UInt64} {now : Int} {key member : String}
    {slot slot' : Option Entry} (h : IsCrowd S slot)
    (hok : (Op.observe key member).apply now slot = .ok slot') :
    IsCrowd (insert (Sketch.hashOf member) S) slot' := by
  obtain ⟨s, hs, rfl⟩ := Counter.apply_observe_eq_ok_iff.1 hok
  refine .inr ?_
  rcases h with ⟨rfl, rfl⟩ | rfl
  · obtain rfl : Sketch.empty = s := Counter.Value.sketch.inj hs
    rw [Sketch.empty_eq_ofSet, Sketch.add, Sketch.addHash_ofSet]
    rfl
  · obtain rfl : Sketch.ofSet S = s := Counter.Value.sketch.inj hs
    rw [Sketch.add, Sketch.addHash_ofSet]
    rfl

theorem kept_crowd (token : Nat → Window → String) (k : Crowd) (u : String) :
    Kept token (.crowd k) u (fun _ _ => True) fun _ _ log slot =>
      IsCrowd ((gains k.member u log).map Sketch.hashOf).toFinset slot := by
  refine kept_gains (Q := fun ms slot => IsCrowd (ms.map Sketch.hashOf).toFinset slot) token
    (fun m => .observe ((Account.crowd k).key u) m) ?_ (.inl ⟨rfl, rfl⟩) ?_ ?_
  · rintro now tok ev rfl
    rfl
  · rintro now ms slot (⟨rfl, hS⟩ | rfl)
    · exact .inl ⟨rfl, hS⟩
    · exact .inr rfl
  · intro now member ms slot slot' h hok
    have hset : ((ms ++ [member]).map Sketch.hashOf).toFinset =
        insert (Sketch.hashOf member) (ms.map Sketch.hashOf).toFinset := by
      rw [List.map_append, List.toFinset_append, Finset.union_comm]
      rfl
    rw [hset]
    exact isCrowd_observe h hok

/-! ### Windows -/

theorem isScores_trim {now : Int} {key : String} {bound : Int} {slot slot' : Option Entry}
    (hok : (Op.trim key bound).apply now slot = .ok slot') : IsScores slot' := by
  intro entry hentry
  subst hentry
  rcases Counter.apply_trim_eq_ok_iff.1 hok with ⟨-, h⟩ | ⟨t, x, -, h⟩
  · cases h
  · split at h
    · cases h
    · cases h
      exact ⟨_, rfl⟩

theorem isScores_expire {now : Int} {key : String} {instant : Int} {slot slot' : Option Entry}
    (h : IsScores slot) (hok : (Op.expire key instant).apply now slot = .ok slot') :
    IsScores slot' := by
  intro entry hentry
  subst hentry
  rw [Counter.apply_expire, Except.ok.injEq] at hok
  split at hok
  · cases hok
  · obtain ⟨entry₀, hentry₀, rfl⟩ := Option.map_eq_some_iff.1 hok
    exact h entry₀ hentry₀

theorem kept_scores (token : Nat → Window → String) (w : Window) (u : String) :
    Kept token (.window w) u (fun _ _ => True) fun _ _ _ slot => IsScores slot where
  start _ := by
    rintro entry ⟨⟩
  advance _ h := h
  lapse h entry hentry := h entry (Option.filter_eq_some_iff.1 hentry).1
  step ev h hok := by
    rw [changes_window] at hok
    split at hok
    · obtain ⟨slot₁, -, hok⟩ := Counter.applyAll_cons_eq_ok_iff.1 hok
      obtain ⟨slot₂, htrim, hok⟩ := Counter.applyAll_cons_eq_ok_iff.1 hok
      obtain ⟨slot₃, hexpire, hnil⟩ := Counter.applyAll_cons_eq_ok_iff.1 hok
      cases hnil
      exact isScores_expire (isScores_trim htrim) hexpire
    · cases hok
      exact h

/-! ### Answers -/

section Answers
variable {m : Memory} {now : Int} {uri : String}

theorem answer_tally {k : Tally} {n : Nat}
    (h : IsTally n (m.entries.find? ((Account.tally k).key uri))) :
    m.answer now ((Account.tally k).query now uri) = .ok n := by
  unfold Memory.answer Memory.live?
  rw [Account.key_query]
  rcases h with ⟨hnone, rfl⟩ | hsome
  · rw [hnone]
    rfl
  · rw [hsome]
    rfl

theorem answer_crowd {k : Crowd} {S : Finset UInt64}
    (h : IsCrowd S (m.entries.find? ((Account.crowd k).key uri))) :
    m.answer now ((Account.crowd k).query now uri) = .ok (Sketch.answered S) := by
  unfold Memory.answer Memory.live?
  rw [Account.key_query]
  rcases h with ⟨hnone, rfl⟩ | hsome
  · rw [hnone, Sketch.answered_of_card_le (Nat.zero_le _)]
    rfl
  · rw [hsome, Sketch.answered, ← Sketch.count_ofSet]
    rfl

theorem answer_scores {w : Window}
    (h : IsScores (m.entries.find? ((Account.window w).key uri))) :
    ∃ n : Nat, m.answer now ((Account.window w).query now uri) = .ok n := by
  unfold Memory.answer
  rw [Account.key_query]
  cases he : m.live? now ((Account.window w).key uri) with
  | none => exact ⟨0, rfl⟩
  | some entry =>
    obtain ⟨t, ht⟩ := h entry (Option.filter_eq_some_iff.1 he).1
    simp only [ht]
    exact ⟨_, rfl⟩

end Answers

/-! ### Counts -/

/-- What only events of one kind bring is gained from the recorded events of this kind. -/
theorem gains_eq {α : Type} {f g : Event → Option α} {kind : EventKind}
    (h : ∀ ev, f ev = if ev.kind = kind then g ev else none) (u : String) (log : List Occurrence) :
    gains f u log = (about kind u log).filterMap fun o => g o.event := by
  unfold gains about
  rw [List.filterMap_filter]
  refine List.filterMap_congr fun o _ => ?_
  rw [h]
  by_cases hs : o.event.subject = u <;> by_cases hk : o.event.kind = kind <;> simp [hs, hk]

theorem sum_gains_eq {k : Tally} {kind : EventKind} (f : Event → Nat)
    (h : ∀ ev, k.amount ev = if ev.kind = kind then some (f ev) else none) (u : String)
    (log : List Occurrence) :
    (gains k.amount u log).sum = ((about kind u log).map fun o => f o.event).sum := by
  rw [gains_eq h, ← List.filterMap_eq_map]
  rfl

theorem sum_gains_eq_length {k : Tally} {kind : EventKind}
    (h : ∀ ev, k.amount ev = if ev.kind = kind then some 1 else none) (u : String)
    (log : List Occurrence) : (gains k.amount u log).sum = (about kind u log).length := by
  rw [sum_gains_eq (fun _ => 1) h, List.map_const', List.sum_replicate_nat, Nat.mul_one]

theorem hashes_gains {k : Crowd} {kind : EventKind}
    (h : ∀ ev, k.member ev = if ev.kind = kind then ev.actor? else none) (u : String)
    (log : List Occurrence) :
    ((gains k.member u log).map Sketch.hashOf).toFinset = actorHashes kind u log := by
  unfold actorHashes
  rw [gains_eq h]

/-- What is kept of an account of a record by every clock holds after every run on records. -/
theorem Kept.run_records {ς : Type} {e : Engine Memory ς} (he : e.counters = Memory.store)
    {a : Account} {u : String} {P : Int → Nat → List Occurrence → Option Entry → Prop}
    (hk : Kept e.token a u (fun _ _ => True) P) {bs : List Batch}
    (hsub : ∀ b ∈ bs, ∀ ev ∈ b.events, IsRecord ev.subject) (hu : IsRecord u) (summaries : ς)
    (now : Int) : P now (e.run bs (Engine.start summaries)).fresh
      (e.log bs (Engine.start summaries))
      ((e.run bs (Engine.start summaries)).counters.entries.find? (a.key u)) := by
  refine hk.run he (fun _ => trivial) summaries (fun b hb ev hev => ?_) ?_
  · exact not_entangled_of_isRecord (hsub b hb ev hev) hu
  · exact List.pairwise_of_forall fun _ _ => trivial

/-- The tallies and crowds of a subject after a run, as answers. -/
theorem answers_of_run {ς : Type} {e : Engine Memory ς} (he : e.counters = Memory.store)
    {bs : List Batch} (hsub : ∀ b ∈ bs, ∀ ev ∈ b.events, IsRecord ev.subject) {u : String}
    (hu : IsRecord u) (summaries : ς) (now : Int) :
    let m := (e.run bs (Engine.start summaries)).counters
    let log := e.log bs (Engine.start summaries)
    (∀ k : Tally, m.answer now ((Account.tally k).query now u) = .ok (gains k.amount u log).sum) ∧
      (∀ k : Crowd, m.answer now ((Account.crowd k).query now u) =
        .ok (Sketch.answered ((gains k.member u log).map Sketch.hashOf).toFinset)) ∧
      ∀ w : Window, ∃ n : Nat, m.answer now ((Account.window w).query now u) = .ok n := by
  intro m log
  refine ⟨fun k => answer_tally ?_, fun k => answer_crowd ?_, fun w => answer_scores ?_⟩
  · exact (kept_tally e.token k u).run_records he hsub hu summaries now
  · exact (kept_crowd e.token k u).run_records he hsub hu summaries now
  · exact (kept_scores e.token w u).run_records he hsub hu summaries now

/-- The summary of a record can be read after every run on records. -/
theorem exists_summary_of_run {ς : Type} {e : Engine Memory ς} (he : e.counters = Memory.store)
    {bs : List Batch} (hsub : ∀ b ∈ bs, ∀ ev ∈ b.events, IsRecord ev.subject) {u : String}
    (hu : IsRecord u) (summaries : ς) (now : Int) :
    ∃ s, e.summary now u (e.run bs (Engine.start summaries)).counters = .ok s ∧ s.uri = u := by
  obtain ⟨htally, hcrowd, hwindow⟩ := answers_of_run he hsub hu summaries now
  choose views hviews using hwindow
  exact ⟨_, summary_of_counts (answersBy_memory he) htally hcrowd hviews, rfl⟩

/-- **Lifetime counts are exact.** After every run of batches about records, at whatever instants,
the summary of a record can be read at every instant, its lifetime counts are those of the events
recorded about it, and so is the number of its views. -/
theorem summary_lifetime {ς : Type} {e : Engine Memory ς} (he : e.counters = Memory.store)
    {bs : List Batch} (hsub : ∀ b ∈ bs, ∀ ev ∈ b.events, IsRecord ev.subject) {u : String}
    (hu : IsRecord u) (summaries : ς) (now : Int) :
    ∃ s, e.summary now u (e.run bs (Engine.start summaries)).counters = .ok s ∧
      CountsOf u (e.log bs (Engine.start summaries)) s ∧
      e.viewCount now u (e.run bs (Engine.start summaries)).counters = .ok s.totalViews := by
  obtain ⟨htally, hcrowd, hwindow⟩ := answers_of_run he hsub hu summaries now
  generalize (e.run bs (Engine.start summaries)).counters = m at *
  generalize e.log bs (Engine.start summaries) = log at *
  choose views hviews using hwindow
  -- The unique counts get a name, lest comparing summaries unfolds them.
  obtain ⟨unique, hunique⟩ : ∃ unique : Crowd → Int, ∀ k : Crowd,
      Sketch.answered ((gains k.member u log).map Sketch.hashOf).toFinset = unique k :=
    ⟨_, fun _ => rfl⟩
  simp only [hunique] at hcrowd
  have hsamples : (gains Tally.dwellCount.amount u log).sum = (about .dwell u log).length :=
    sum_gains_eq_length (fun ev => by cases ev <;> rfl) u log
  refine ⟨_, summary_of_counts (answersBy_memory he) htally hcrowd hviews,
    ⟨rfl, ?_, ?_, ?_, ?_, hsamples, ?_, ?_, ?_⟩, ?_⟩
  · exact sum_gains_eq_length (fun ev => by cases ev <;> rfl) u log
  · exact sum_gains_eq_length (fun ev => by cases ev <;> rfl) u log
  · exact sum_gains_eq_length (fun ev => by cases ev <;> rfl) u log
  · exact sum_gains_eq_length (fun ev => by cases ev <;> rfl) u log
  · have htotal : (gains Tally.dwellTotal.amount u log).sum =
        ((about .dwell u log).map fun o => o.event.millis).sum :=
      sum_gains_eq Event.millis (fun ev => by cases ev <;> rfl) u log
    simp only [Summary.ofAnswers, Account.count, hsamples, htotal]
  · rw [← hashes_gains (k := .viewers) (fun ev => by cases ev <;> rfl) u log, hunique]
    rfl
  · rw [← hashes_gains (k := .downloaders) (fun ev => by cases ev <;> rfl) u log, hunique]
    rfl
  · exact viewCount_of_answer he (htally .views)

/-- A run by a clock that goes back, with a batch that is refused. -/
theorem summary_lifetime_clock_back :
    let e : Engine Memory Unit := .withUsualLimit Memory.store none
    let bs : List Batch :=
      [⟨5, [.view "at://a/b/c" none, .dwell "at://a/b/c" 3]⟩, ⟨2, [.view "at://a/b/c" none]⟩,
       ⟨7, [.view "at://a/b/c" none, .dwell "at://a/b/c" (Word.count 63)]⟩]
    e.counters = Memory.store ∧ (∀ b ∈ bs, ∀ ev ∈ b.events, IsRecord ev.subject) ∧
      IsRecord "at://a/b/c" ∧
      ∃ s, e.summary 4 "at://a/b/c" (e.run bs (Engine.start ())).counters = .ok s ∧
        s.totalViews = 2 ∧ s.averageDwell = some 3 := by
  intro e bs
  have hu : IsRecord "at://a/b/c" :=
    ⟨⟨"a", "b", "c"⟩, RecordUri.parse_eq_ok_iff.2 ⟨rfl, by decide, by decide, by decide⟩⟩
  have hsub : ∀ b ∈ bs, ∀ ev ∈ b.events, IsRecord ev.subject := by
    simp only [bs, List.forall_mem_cons, List.not_mem_nil, false_imp_iff, implies_true, and_true]
    exact ⟨⟨hu, hu⟩, hu, hu, hu⟩
  have hlog : e.log bs (Engine.start ()) =
      [⟨5, 0, .view "at://a/b/c" none⟩, ⟨5, 1, .dwell "at://a/b/c" 3⟩,
       ⟨2, 2, .view "at://a/b/c" none⟩] := by
    unfold e bs
    decide +kernel
  obtain ⟨s, hs, hcounts, -⟩ := summary_lifetime (e := e) rfl hsub hu () 4
  rw [hlog] at hcounts
  refine ⟨rfl, hsub, hu, s, hs, hcounts.totalViews.trans ?_, hcounts.averageDwell.trans ?_⟩
  · decide +kernel
  · decide +kernel

end PaperIndex.Metrics
