import PaperIndex.Proofs.Metrics.Lifetime

/-! # Windows of views

The set of a window is cut three times: a view trims what is as old as the span and lets the set
expire a span later, and a question counts from the instant after `now - span` on. If the clock
never runs backwards and no token is drawn twice, the three cuts agree (`Trails`): the set holds the
instants of the views within a span of the last one, and it expires when the last one leaves the
window. So the count is that of the views recorded within the window (`summary_windows`). -/

namespace PaperIndex.Metrics

open Counter (Memory Entry Op applyAll isLive valueOr)

/-- The instants of the recorded views of a subject. -/
def viewInstants (u : String) (log : List Occurrence) : List Int :=
  (about .view u log).map Occurrence.now

/-- **The entry of a window follows the views**: there is none when all views have left the window,
and otherwise it has a member for each view within a span of the last one. -/
inductive Trails (token : Nat → Window → String) (w : Window) (u : String) :
    Int → Nat → List Occurrence → Option Entry → Prop
  | gone {now n log} (h : ∀ x ∈ viewInstants u log, x ≤ now - w.span) :
    Trails token w u now n log none
  | trailing {now n log} (t : Table String Int) (last : Int) (hlast : last ≤ now)
    (hmax : ∀ x ∈ viewInstants u log, x ≤ last)
    (hrows : (t.rows.map Prod.snd).Perm ((viewInstants u log).filter (last - w.span < ·)))
    (hnames : ∀ m ∈ t.keys, ∃ i k, k < n ∧ m = memberName i (token k w)) :
    Trails token w u now n log (some ⟨.scores t, some (last + w.span)⟩)

/-! ### Member names -/

theorem isDigit_of_mem_repr {n : Nat} {c : Char} (h : c ∈ n.repr.toList) : c.isDigit = true := by
  rw [Nat.toList_repr] at h
  exact Nat.isDigit_of_mem_toDigits (by decide) (by decide) h

theorem colon_not_mem_toString (n : Int) : ':' ∉ (toString n).toList := by
  have hne : ∀ m : Nat, ':' ∉ m.repr.toList := fun m h =>
    absurd (isDigit_of_mem_repr h) (by decide)
  cases n with
  | ofNat m => exact hne m
  | negSucc m =>
    change ':' ∉ ("-" ++ (m + 1).repr).toList
    rw [String.toList_append, List.mem_append, not_or]
    exact ⟨by decide, hne (m + 1)⟩

/-- A member name tells the token. -/
theorem token_of_memberName {i j : Int} {s t : String} (h : memberName i s = memberName j t) :
    s = t := by
  have hlist : (toString i).toList ++ ':' :: s.toList = (toString j).toList ++ ':' :: t.toList := by
    have := congrArg String.toList h
    simpa [memberName] using this
  have hpieces := congrArg (Text.pieces ':') hlist
  rw [Text.pieces_append_cons (colon_not_mem_toString i),
    Text.pieces_append_cons (colon_not_mem_toString j)] at hpieces
  rw [(List.cons.inj hpieces).1] at hlist
  exact String.toList_inj.1 (List.cons.inj (List.append_cancel_left hlist)).2

/-- The usual tokens are never drawn twice. -/
theorem token_withUsualLimit_inj {σ ς : Type} {counters : Counter.Store σ} {sink : Option (Sink ς)}
    (w : Window) (i j : Nat) (h : (Engine.withUsualLimit counters sink).token i w =
      (Engine.withUsualLimit counters sink).token j w) : i = j := by
  have hdigits : Nat.toDigits 10 i = Nat.toDigits 10 j := by
    rw [← Nat.toList_repr, ← Nat.toList_repr]
    exact congrArg String.toList h
  rw [← Nat.ofDigitChars_ten_toDigits (n := i), hdigits, Nat.ofDigitChars_ten_toDigits]

/-! ### One view -/

theorem about_snoc (kind : EventKind) (u : String) (log : List Occurrence) (o : Occurrence) :
    about kind u (log ++ [o]) =
      about kind u log ++ if o.event.kind = kind ∧ o.event.subject = u then [o] else [] := by
  unfold about
  rw [List.filter_append, List.filter_singleton]
  simp

@[simp] theorem about_about (kind : EventKind) (u : String) (log : List Occurrence) :
    about kind u (about kind u log) = about kind u log := by
  simp [about, List.filter_filter]

theorem viewInstants_snoc_view (u : String) (log : List Occurrence) (now : Int) (n : Nat)
    (actor : Option String) :
    viewInstants u (log ++ [⟨now, n, .view u actor⟩]) = viewInstants u log ++ [now] := by
  unfold viewInstants
  rw [about_snoc, if_pos ⟨rfl, rfl⟩, List.map_append]
  rfl

theorem viewInstants_snoc_other {u : String} {ev : Event}
    (h : ¬(ev.kind = .view ∧ ev.subject = u)) (log : List Occurrence) (now : Int) (n : Nat) :
    viewInstants u (log ++ [⟨now, n, ev⟩]) = viewInstants u log := by
  unfold viewInstants
  rw [about_snoc, if_neg h, List.append_nil]

/-- **A view enters a window**: its member is put in, the old ones are trimmed, and the set expires
a span later. -/
theorem exists_scores_of_enterWindow {now : Int} {token : Window → String} {u : String} {w : Window}
    {slot slot' : Option Entry} (hok : applyAll now (enterWindow now token u w) slot = .ok slot') :
    ∃ t, valueOr (.scores .empty) slot = .scores t ∧
      slot' = some ⟨.scores ((t.insert (memberName now (token w)) now).filter
        fun _ score => now - w.span < score), some (now + w.span)⟩ := by
  have hpos := w.span_pos
  obtain ⟨slot₁, hplace, hok⟩ := Counter.applyAll_cons_eq_ok_iff.1 hok
  obtain ⟨slot₂, htrim, hok⟩ := Counter.applyAll_cons_eq_ok_iff.1 hok
  obtain ⟨slot₃, hexpire, hnil⟩ := Counter.applyAll_cons_eq_ok_iff.1 hok
  cases hnil
  obtain ⟨t, ht, rfl⟩ := Counter.apply_place_eq_ok_iff.1 hplace
  refine ⟨t, ht, ?_⟩
  rcases Counter.apply_trim_eq_ok_iff.1 htrim with ⟨hnone, -⟩ | ⟨t', x, hsome, htrimmed⟩
  · cases hnone
  · cases hsome
    -- The new member is younger than the span, so the set is not emptied.
    have hne : ((t.insert (memberName now (token w)) now).filter
        fun _ score => now - w.span < score).rows.isEmpty = false := by
      rw [Table.rows_filter, Table.insert, List.filter_cons, if_pos (decide_eq_true (by omega))]
      rfl
    rw [hne, if_neg Bool.false_ne_true] at htrimmed
    rw [Counter.apply_expire, if_neg (by omega), htrimmed] at hexpire
    exact (Except.ok.inj hexpire).symm

theorem exists_slot_enterWindow {slot : Option Entry} {t : Table String Int}
    (ht : valueOr (.scores .empty) slot = .scores t) (now : Int) (tok : Window → String)
    (u : String) (w : Window) :
    ∃ slot', applyAll now (enterWindow now tok u w) slot = .ok slot' := by
  rcases slot with _ | ⟨v, x⟩
  · simp only [enterWindow, Counter.applyAll_cons_eq_ok_iff]
    exact ⟨_, _, rfl, _, rfl, _, Counter.apply_expire .., rfl⟩
  · obtain rfl : v = .scores t := ht
    simp only [enterWindow, Counter.applyAll_cons_eq_ok_iff]
    exact ⟨_, _, rfl, _, rfl, _, Counter.apply_expire .., rfl⟩

/-- A member with a new name gets a row of its own, which is not trimmed. -/
theorem rows_enter {name : String} {t : Table String Int} (hnew : name ∉ t.keys) (now : Int)
    (w : Window) : ((t.insert name now).filter fun _ score => now - w.span < score).rows =
      (name, now) :: t.rows.filter fun r => now - w.span < r.2 := by
  have hpos := w.span_pos
  rw [Table.rows_filter, Table.rows_insert_of_not_mem hnew, List.filter_cons,
    if_pos (decide_eq_true (by omega))]

section Trails
variable {token : Nat → Window → String} {w : Window} {u : String} {now : Int} {n : Nat}
  {log : List Occurrence} {slot : Option Entry}

theorem le_of_trails (h : Trails token w u now n log slot) : ∀ x ∈ viewInstants u log, x ≤ now := by
  have hpos := w.span_pos
  cases h with
  | gone h => exact fun x hx => by have := h x hx; omega
  | trailing t last hlast hmax hrows hnames => exact fun x hx => (hmax x hx).trans hlast

/-- The members that a trim leaves are the views that are still in the window. -/
theorem filter_of_trails (h : Trails token w u now n log slot) {t : Table String Int}
    (ht : valueOr (.scores .empty) slot = .scores t) :
    ((t.rows.map Prod.snd).filter (now - w.span < ·)).Perm
      ((viewInstants u log).filter (now - w.span < ·)) := by
  cases h with
  | gone h =>
    cases ht
    have hnone : (viewInstants u log).filter (now - w.span < ·) = [] := by
      refine List.filter_eq_nil_iff.2 fun x hx hlt => ?_
      have := h x hx
      rw [decide_eq_true_eq] at hlt
      omega
    rw [hnone]
    rfl
  | trailing t' last hlast hmax hrows hnames =>
    cases ht
    refine (hrows.filter _).trans ?_
    rw [List.filter_filter]
    refine List.Perm.of_eq (List.filter_congr fun x hx => ?_)
    have := hmax x hx
    rw [← Bool.decide_and, decide_eq_decide]
    omega

theorem names_of_trails (h : Trails token w u now n log slot) {t : Table String Int}
    (ht : valueOr (.scores .empty) slot = .scores t) :
    ∀ m ∈ t.keys, ∃ i k, k < n ∧ m = memberName i (token k w) := by
  cases h with
  | gone h =>
    cases ht
    exact fun m hm => absurd hm List.not_mem_nil
  | trailing t' last hlast hmax hrows hnames =>
    cases ht
    exact hnames

/-- **A view** puts the entry of a window in order. -/
theorem trails_view (hdistinct : ∀ i j, token i w = token j w → i = j)
    (h : Trails token w u now n log slot) {actor : Option String} {slot' : Option Entry}
    (hok : applyAll now (enterWindow now (token n) u w) slot = .ok slot') :
    Trails token w u now (n + 1) (log ++ [⟨now, n, .view u actor⟩]) slot' := by
  have hpos := w.span_pos
  obtain ⟨t, ht, rfl⟩ := exists_scores_of_enterWindow hok
  have hnames := names_of_trails h ht
  -- The token is new, so the view gets a row of its own.
  have hnew : memberName now (token n w) ∉ t.keys := fun hm => by
    obtain ⟨i, k, hk, hname⟩ := hnames _ hm
    have := hdistinct _ _ (token_of_memberName hname)
    omega
  have hrows := rows_enter hnew now w
  refine .trailing _ now le_rfl ?_ ?_ ?_
  · intro x hx
    rw [viewInstants_snoc_view, List.mem_append, List.mem_singleton] at hx
    rcases hx with hx | rfl
    · exact le_of_trails h x hx
    · exact le_rfl
  · have hkept : (t.rows.filter fun r => now - w.span < r.2).map Prod.snd =
        (t.rows.map Prod.snd).filter (now - w.span < ·) := by
      rw [List.filter_map]
      rfl
    have hlast : [now].filter (now - w.span < ·) = [now] :=
      List.filter_eq_self.2 fun x hx => decide_eq_true (by rw [List.mem_singleton.1 hx]; omega)
    rw [hrows, List.map_cons, hkept, viewInstants_snoc_view, List.filter_append, hlast]
    exact ((filter_of_trails h ht).cons now).trans (List.perm_append_singleton _ _).symm
  · intro m hm
    rw [Table.keys, hrows, List.map_cons, List.mem_cons] at hm
    rcases hm with rfl | hm
    · exact ⟨now, n, Nat.lt_succ_self n, rfl⟩
    · obtain ⟨r, hr, rfl⟩ := List.mem_map.1 hm
      obtain ⟨i, k, hk, hname⟩ := hnames r.1 (List.mem_map_of_mem (List.mem_filter.1 hr).1)
      exact ⟨i, k, Nat.lt_succ_of_lt hk, hname⟩

/-- An event that is no view of the subject leaves the entry of a window. -/
theorem trails_other (h : Trails token w u now n log slot) {ev : Event}
    (hev : ¬(ev.kind = .view ∧ ev.subject = u)) :
    Trails token w u now (n + 1) (log ++ [⟨now, n, ev⟩]) slot := by
  have hlog := viewInstants_snoc_other hev log now n
  cases h with
  | gone h => exact .gone (hlog ▸ h)
  | trailing t last hlast hmax hrows hnames =>
    refine .trailing t last hlast (hlog ▸ hmax) (hlog ▸ hrows) fun m hm => ?_
    obtain ⟨i, k, hk, hname⟩ := hnames m hm
    exact ⟨i, k, Nat.lt_succ_of_lt hk, hname⟩

theorem trails_advance {now' : Int} (hle : now ≤ now') (h : Trails token w u now n log slot) :
    Trails token w u now' n log slot := by
  cases h with
  | gone h => exact .gone fun x hx => by have := h x hx; omega
  | trailing t last hlast hmax hrows hnames =>
    exact .trailing t last (hlast.trans hle) hmax hrows hnames

/-- The entry lapses at the instant at which the last view leaves the window. -/
theorem trails_lapse (h : Trails token w u now n log slot) :
    Trails token w u now n log (slot.filter fun entry => isLive now entry.expiry) := by
  cases h with
  | gone h => exact .gone h
  | trailing t last hlast hmax hrows hnames =>
    rw [Option.filter_some]
    split_ifs with hlive
    · exact .trailing t last hlast hmax hrows hnames
    · simp only [isLive, Option.all_some, decide_eq_true_eq] at hlive
      exact .gone fun x hx => by have := hmax x hx; omega

/-- The number of members that a question counts is that of the views in the window. -/
theorem countP_of_trails {t : Table String Int} {last : Int} (hlast : last ≤ now)
    (hrows : (t.rows.map Prod.snd).Perm ((viewInstants u log).filter (last - w.span < ·))) :
    t.rows.countP (fun r => now - w.span + 1 ≤ r.2 && r.2 ≤ now) =
      (viewInstants u log).countP fun x => now - w.span < x ∧ x ≤ now := by
  have hmap : t.rows.countP (fun r => now - w.span + 1 ≤ r.2 && r.2 ≤ now) =
      (t.rows.map Prod.snd).countP fun x => now - w.span + 1 ≤ x && x ≤ now := by
    rw [List.countP_map]
    rfl
  rw [hmap, hrows.countP_eq, List.countP_filter]
  refine List.countP_congr fun x _ => ?_
  simp only [Bool.and_eq_true, decide_eq_true_eq]
  omega

end Trails

theorem kept_window {token : Nat → Window → String} {w : Window}
    (hdistinct : ∀ i j, token i w = token j w → i = j) (u : String) :
    Kept token (.window w) u (· ≤ ·) (Trails token w u) where
  start now := .gone fun x hx => absurd hx List.not_mem_nil
  advance hle h := trails_advance hle h
  lapse h := trails_lapse h
  step ev h hok := by
    rw [changes_window] at hok
    split at hok
    · next hview =>
      obtain ⟨actor, rfl⟩ := exists_actor_of_view hview
      exact trails_view hdistinct h hok
    · next hother =>
      cases hok
      exact trails_other h hother

/-! ### Counts -/

theorem answer_window {token : Nat → Window → String} {w : Window} {u : String} {now : Int}
    {n : Nat} {log : List Occurrence} {m : Memory}
    (h : Trails token w u now n log (m.entries.find? ((Account.window w).key u))) :
    m.answer now ((Account.window w).query now u) =
      .ok ((viewInstants u log).countP fun x => now - w.span < x ∧ x ≤ now) := by
  have hlive : Trails token w u now n log (m.live? now ((Account.window w).key u)) :=
    trails_lapse h
  unfold Memory.answer
  rw [Account.key_query]
  generalize m.live? now ((Account.window w).key u) = slot at hlive
  cases hlive with
  | gone hgone =>
    have hnone : (viewInstants u log).countP (fun x => now - w.span < x ∧ x ≤ now) = 0 := by
      refine List.countP_eq_zero.2 fun x hx hin => ?_
      have := hgone x hx
      rw [decide_eq_true_eq] at hin
      omega
    rw [hnone]
    rfl
  | trailing t last hlast hmax hrows hnames =>
    exact congrArg _ (congrArg Nat.cast (countP_of_trails hlast hrows))

/-- **Windowed counts are exact** for a clock that never runs backwards and tokens that are never
drawn twice: after every run of batches about records, at every instant from the last batch on, the
counts of a summary are those of the views recorded within a span of the instant. -/
theorem summary_windows {ς : Type} {e : Engine Memory ς} (he : e.counters = Memory.store)
    (hdistinct : ∀ w i j, e.token i w = e.token j w → i = j) {bs : List Batch}
    (hsub : ∀ b ∈ bs, ∀ ev ∈ b.events, IsRecord ev.subject) {u : String} (hu : IsRecord u)
    (summaries : ς) {now : Int} (hclock : (bs.map Batch.now).Pairwise (· ≤ ·))
    (hnow : ∀ b ∈ bs, b.now ≤ now) :
    let views (w : Window) : Nat :=
      (viewInstants u (e.log bs (Engine.start summaries))).countP
        fun x => now - w.span < x ∧ x ≤ now
    ∃ s, e.summary now u (e.run bs (Engine.start summaries)).counters = .ok s ∧
      s.viewsOfDay = views .day ∧ s.viewsOfWeek = views .week ∧ s.viewsOfMonth = views .month := by
  intro views
  obtain ⟨htally, hcrowd, -⟩ := answers_of_run he hsub hu summaries now
  have hfree : ∀ b ∈ bs, ∀ ev ∈ b.events, ¬Entangled ev.subject u := fun b hb ev hev =>
    not_entangled_of_isRecord (hsub b hb ev hev) hu
  have hT : (bs.map Batch.now ++ [now]).Pairwise (· ≤ ·) := by
    refine List.pairwise_append.2 ⟨hclock, List.pairwise_singleton _ _, fun x hx y hy => ?_⟩
    obtain ⟨b, hb, rfl⟩ := List.mem_map.1 hx
    rw [List.mem_singleton.1 hy]
    exact hnow b hb
  have hwindow : ∀ w, _ = Except.ok (views w : Int) := fun w =>
    answer_window ((kept_window (hdistinct w) u).run he le_refl summaries hfree hT)
  exact ⟨_, summary_of_counts (answersBy_memory he) htally hcrowd hwindow, rfl, rfl, rfl⟩

/-- The first of two views leaves the window of a day at the instant of the second one. -/
theorem summary_windows_day_later :
    let e : Engine Memory Unit := .withUsualLimit Memory.store none
    let bs : List Batch :=
      [⟨0, [.view "at://a/b/c" none]⟩, ⟨86400000, [.view "at://a/b/c" none]⟩]
    e.counters = Memory.store ∧ (∀ w i j, e.token i w = e.token j w → i = j) ∧
      (∀ b ∈ bs, ∀ ev ∈ b.events, IsRecord ev.subject) ∧ IsRecord "at://a/b/c" ∧
      (bs.map Batch.now).Pairwise (· ≤ ·) ∧ (∀ b ∈ bs, b.now ≤ 86400000) ∧
      ∃ s, e.summary 86400000 "at://a/b/c" (e.run bs (Engine.start ())).counters = .ok s ∧
        s.viewsOfDay = 1 ∧ s.viewsOfWeek = 2 ∧ s.viewsOfMonth = 2 := by
  intro e bs
  have hdistinct : ∀ w i j, e.token i w = e.token j w → i = j := token_withUsualLimit_inj
  have hu : IsRecord "at://a/b/c" :=
    ⟨⟨"a", "b", "c"⟩, RecordUri.parse_eq_ok_iff.2 ⟨rfl, by decide, by decide, by decide⟩⟩
  have hsub : ∀ b ∈ bs, ∀ ev ∈ b.events, IsRecord ev.subject := by
    simp only [bs, List.forall_mem_cons, List.not_mem_nil, false_imp_iff, implies_true, and_true]
    exact ⟨hu, hu⟩
  have hclock : (bs.map Batch.now).Pairwise (· ≤ ·) := by
    unfold bs
    decide
  have hnow : ∀ b ∈ bs, b.now ≤ 86400000 := by
    unfold bs
    decide
  have hlog : e.log bs (Engine.start ()) =
      [⟨0, 0, .view "at://a/b/c" none⟩, ⟨86400000, 1, .view "at://a/b/c" none⟩] := by
    unfold e bs
    decide +kernel
  obtain ⟨s, hs, hday, hweek, hmonth⟩ :=
    summary_windows (e := e) rfl hdistinct hsub hu () hclock hnow
  rw [hlog] at hday hweek hmonth
  refine ⟨rfl, hdistinct, hsub, hu, hclock, hnow, s, hs, hday.trans ?_, hweek.trans ?_,
    hmonth.trans ?_⟩
  · decide +kernel
  · decide +kernel
  · decide +kernel

end PaperIndex.Metrics
