import PaperIndex.Proofs.Metrics.Windows

/-! # What a window holds

If the clock may go back, the set of a window is not the set of the views within a span: it has been
trimmed at one instant, may have expired at another one, and started anew at a third. What it holds
still follows from the log (`held`): whenever the window is looked at, its views are dropped if it
has expired, and a view then trims the rest and enters it.

A longer window trims less and expires later after the same last view, so it holds all that a
shorter one does (`held_within`), whatever the clock does. `Holds` says that an entry in memory
holds certain views, and `holds_events` that the events of a batch keep this. -/

namespace PaperIndex.Metrics

open Account
open Counter (Entry applyAll opsOn isLive valueOr)

/-! ### The views in a window -/

/-- When a window with the given views expires. -/
def lapseOf (w : Window) (vs : List Occurrence) : Option Int :=
  vs.getLast?.map fun o => o.now + w.span

/-- What is left of the views in a window at an instant. -/
def unexpired (w : Window) (now : Int) (vs : List Occurrence) : List Occurrence :=
  if isLive now (lapseOf w vs) then vs else []

/-- The views in the window of a subject after a recorded event. -/
def holdNext (w : Window) (u : String) (vs : List Occurrence) (o : Occurrence) : List Occurrence :=
  let left := unexpired w o.now vs
  if o.event.kind = .view ∧ o.event.subject = u then
    left.filter (fun v => o.now - w.span < v.now) ++ [o]
  else left

/-- **The views that the window of a subject holds**, if it is looked at with each recorded
event. -/
def held (w : Window) (u : String) (log : List Occurrence) : List Occurrence :=
  log.foldl (holdNext w u) []

/-- The number of views that a question at an instant finds. -/
def windowCount (w : Window) (now : Int) (vs : List Occurrence) : Nat :=
  (unexpired w now vs).countP fun v => now - w.span < v.now ∧ v.now ≤ now

theorem held_append (w : Window) (u : String) (log log' : List Occurrence) :
    held w u (log ++ log') = log'.foldl (holdNext w u) (held w u log) := List.foldl_append

section Unexpired
variable {w : Window} {u : String} {now : Int}

@[simp] theorem unexpired_nil : unexpired w now [] = [] := ite_self _

theorem unexpired_sublist (w : Window) (now : Int) (vs : List Occurrence) :
    (unexpired w now vs).Sublist vs := by
  unfold unexpired
  split
  · exact List.Sublist.refl vs
  · exact List.nil_sublist vs

@[simp] theorem unexpired_unexpired (vs : List Occurrence) :
    unexpired w now (unexpired w now vs) = unexpired w now vs := by
  by_cases hlive : isLive now (lapseOf w vs) = true
  · rw [unexpired, unexpired, if_pos hlive, if_pos hlive]
  · have hnone : unexpired w now vs = [] := if_neg hlive
    rw [hnone, unexpired_nil]

/-- After an event nothing has expired at its instant. -/
theorem unexpired_holdNext (vs : List Occurrence) (o : Occurrence) :
    unexpired w o.now (holdNext w u vs o) = holdNext w u vs o := by
  have hpos := w.span_pos
  unfold holdNext
  dsimp only
  split
  · refine if_pos ?_
    rw [lapseOf, List.getLast?_concat]
    simpa [isLive] using hpos
  · exact unexpired_unexpired vs

theorem holdNext_unexpired {o : Occurrence} (ho : o.now = now) (vs : List Occurrence) :
    holdNext w u (unexpired w now vs) o = holdNext w u vs o := by
  subst ho
  unfold holdNext
  rw [unexpired_unexpired]

/-- After events at an instant nothing has expired at it. -/
theorem unexpired_foldl {os : List Occurrence} (hne : os ≠ []) (ho : ∀ o ∈ os, o.now = now)
    (vs : List Occurrence) :
    unexpired w now (os.foldl (holdNext w u) vs) = os.foldl (holdNext w u) vs := by
  obtain ⟨init, o, rfl⟩ := List.eq_nil_or_concat os |>.resolve_left hne
  rw [List.concat_eq_append, List.foldl_append]
  have hnow : o.now = now := ho o (by simp)
  exact hnow ▸ unexpired_holdNext _ o

theorem foldl_unexpired {os : List Occurrence} (ho : ∀ o ∈ os, o.now = now)
    (vs : List Occurrence) :
    unexpired w now (os.foldl (holdNext w u) (unexpired w now vs)) =
      unexpired w now (os.foldl (holdNext w u) vs) := by
  cases os with
  | nil => exact unexpired_unexpired vs
  | cons o os =>
    rw [List.foldl_cons, List.foldl_cons, holdNext_unexpired (ho o List.mem_cons_self)]

/-- At an instant only the views of the subject matter. -/
theorem foldl_about {os : List Occurrence} (ho : ∀ o ∈ os, o.now = now) (vs : List Occurrence) :
    unexpired w now ((about .view u os).foldl (holdNext w u) vs) =
      unexpired w now (os.foldl (holdNext w u) vs) := by
  induction os generalizing vs with
  | nil => rfl
  | cons o os ih =>
    obtain ⟨hnow, hos⟩ := List.forall_mem_cons.1 ho
    have hrest := ih hos (holdNext w u vs o)
    by_cases hview : o.event.kind = .view ∧ o.event.subject = u
    · have habout : about .view u (o :: os) = o :: about .view u os :=
        List.filter_cons_of_pos (decide_eq_true hview)
      rwa [habout]
    · have habout : about .view u (o :: os) = about .view u os :=
        List.filter_cons_of_neg (by simpa using hview)
      have hnext : holdNext w u vs o = unexpired w now vs := by
        rw [← hnow]
        exact if_neg hview
      have hkept : ∀ v ∈ about .view u os, v.now = now := fun v hv =>
        hos v (List.mem_of_mem_filter hv)
      rw [habout, List.foldl_cons, ← hrest, hnext, foldl_unexpired hkept]

end Unexpired

/-! ### Windows within each other -/

/-- A window holds nothing but what another one holds, and unless it is empty, both hold the same
view as the last one. -/
def Within (vs vs' : List Occurrence) : Prop :=
  vs.Sublist vs' ∧ (vs = [] ∨ vs.getLast? = vs'.getLast?)

theorem within_nil (vs : List Occurrence) : Within [] vs := ⟨List.nil_sublist vs, .inl rfl⟩

section Within
variable {w w' : Window} (hspan : w.span ≤ w'.span) {vs vs' : List Occurrence}
include hspan

/-- The longer window does not expire earlier. -/
theorem within_unexpired (h : Within vs vs') (now : Int) :
    Within (unexpired w now vs) (unexpired w' now vs') := by
  by_cases hlive : isLive now (lapseOf w vs) = true
  · rcases h.2 with rfl | hlast
    · rw [unexpired_nil]
      exact within_nil _
    · have hlive' : isLive now (lapseOf w' vs') = true := by
        unfold lapseOf at hlive ⊢
        rw [← hlast]
        cases hv : vs.getLast? with
        | none => rfl
        | some o =>
          rw [hv] at hlive
          simp only [isLive, Option.map_some, Option.all_some, decide_eq_true_eq] at hlive ⊢
          omega
      rw [unexpired, if_pos hlive, unexpired, if_pos hlive']
      exact h
  · rw [unexpired, if_neg hlive]
    exact within_nil _

theorem within_holdNext (h : Within vs vs') (u : String) (o : Occurrence) :
    Within (holdNext w u vs o) (holdNext w' u vs' o) := by
  have hleft := within_unexpired hspan h o.now
  unfold holdNext
  dsimp only
  split
  · refine ⟨List.Sublist.append_right ?_ [o], .inr ?_⟩
    · refine (hleft.1.filter _).trans (List.monotone_filter_right _ fun v hv => ?_)
      rw [decide_eq_true_eq] at hv ⊢
      omega
    · rw [List.getLast?_concat, List.getLast?_concat]
  · exact hleft

/-- **A longer window holds what a shorter one does.** -/
theorem held_within (u : String) (log : List Occurrence) :
    Within (held w u log) (held w' u log) := by
  induction log using List.reverseRecOn with
  | nil => exact within_nil []
  | append_singleton log o ih =>
    rw [held_append, held_append]
    exact within_holdNext hspan ih u o

theorem windowCount_le (h : Within vs vs') (now : Int) :
    windowCount w now vs ≤ windowCount w' now vs' := by
  refine ((within_unexpired hspan h now).1.countP_le).trans (List.countP_mono_left fun v _ hv => ?_)
  rw [decide_eq_true_eq] at hv ⊢
  omega

end Within

/-- A window holds views of its subject only, each once. -/
theorem held_sublist (w : Window) (u : String) (log : List Occurrence) :
    (held w u log).Sublist (about .view u log) := by
  induction log using List.reverseRecOn with
  | nil => exact List.Sublist.refl []
  | append_singleton log o ih =>
    rw [held_append, about_snoc]
    change (holdNext w u (held w u log) o).Sublist _
    have hleft := (unexpired_sublist w o.now _).trans ih
    unfold holdNext
    dsimp only
    split
    · exact (List.filter_sublist.trans hleft).append (List.Sublist.refl [o])
    · rwa [List.append_nil]

theorem windowCount_le_length (w : Window) (u : String) (now : Int) (log : List Occurrence) :
    windowCount w now (held w u log) ≤ (about .view u log).length :=
  List.countP_le_length.trans ((unexpired_sublist w now _).trans (held_sublist w u log)).length_le

/-! ### Entries -/

/-- The member that a view puts into the set of a window, with its score. -/
def memberRow (token : Nat → Window → String) (w : Window) (o : Occurrence) : String × Int :=
  (memberName o.now (token o.number w), o.now)

/-- **An entry holds the given views** of a window, whose numbers are below the next one. -/
inductive Holds (token : Nat → Window → String) (w : Window) (n : Nat) :
    List Occurrence → Option Entry → Prop
  | none : Holds token w n [] none
  | scores {vs} (t : Table String Int) (last : Occurrence) (hlast : vs.getLast? = some last)
    (hrows : t.rows.Perm (vs.map (memberRow token w))) (hnumbers : ∀ v ∈ vs, v.number < n) :
    Holds token w n vs (some ⟨.scores t, some (last.now + w.span)⟩)

section Holds
variable {token : Nat → Window → String} {w : Window} {n : Nat} {vs : List Occurrence}
  {slot : Option Entry}

theorem Holds.mono (h : Holds token w n vs slot) {n' : Nat} (hle : n ≤ n') :
    Holds token w n' vs slot := by
  cases h with
  | none => exact .none
  | scores t last hlast hrows hnumbers =>
    exact .scores t last hlast hrows fun v hv => (hnumbers v hv).trans_le hle

/-- What is live of an entry holds what has not expired. -/
theorem Holds.live (h : Holds token w n vs slot) (now : Int) :
    Holds token w n (unexpired w now vs) (slot.filter fun entry => isLive now entry.expiry) := by
  cases h with
  | none =>
    rw [unexpired_nil]
    exact .none
  | scores t last hlast hrows hnumbers =>
    have hlapse : lapseOf w vs = some (last.now + w.span) := by
      rw [lapseOf, hlast]
      rfl
    rw [unexpired, hlapse, Option.filter_some]
    by_cases hlive : isLive now (some (last.now + w.span)) = true
    · rw [if_pos hlive, if_pos hlive]
      exact .scores t last hlast hrows hnumbers
    · rw [if_neg hlive, if_neg hlive]
      exact .none

theorem Holds.exists_scores (h : Holds token w n vs slot) :
    ∃ t, valueOr (.scores .empty) slot = .scores t ∧ t.rows.Perm (vs.map (memberRow token w)) ∧
      ∀ v ∈ vs, v.number < n := by
  cases h with
  | none => exact ⟨.empty, rfl, List.Perm.refl _, fun v hv => absurd hv List.not_mem_nil⟩
  | scores t last hlast hrows hnumbers => exact ⟨t, rfl, hrows, hnumbers⟩

/-- **A view** enters the window: it is held beside those that are not trimmed. -/
theorem Holds.view (hdistinct : ∀ i j, token i w = token j w → i = j)
    (h : Holds token w n vs slot) (now : Int) (u : String) (ev : Event) :
    ∃ slot', applyAll now (enterWindow now (token n) u w) slot = .ok slot' ∧
      Holds token w (n + 1) (vs.filter (fun v => now - w.span < v.now) ++ [⟨now, n, ev⟩])
        slot' := by
  obtain ⟨t, ht, hrows, hnumbers⟩ := h.exists_scores
  obtain ⟨slot', hok⟩ := exists_slot_enterWindow ht now (token n) u w
  refine ⟨slot', hok, ?_⟩
  obtain ⟨t', ht', rfl⟩ := exists_scores_of_enterWindow hok
  obtain rfl : t = t' := Counter.Value.scores.inj (ht.symm.trans ht')
  -- The token is new, so the view gets a row of its own.
  have hnew : memberName now (token n w) ∉ t.keys := by
    intro hmem
    obtain ⟨row, hrow, hname⟩ := List.mem_map.1 hmem
    obtain ⟨v, hv, rfl⟩ := List.mem_map.1 (hrows.mem_iff.1 hrow)
    have hsame := hdistinct _ _ (token_of_memberName hname)
    exact (hnumbers v hv).ne hsame
  refine .scores _ ⟨now, n, ev⟩ List.getLast?_concat ?_ ?_
  · rw [rows_enter hnew, List.map_append]
    have hleft : (t.rows.filter fun row => now - w.span < row.2).Perm
        ((vs.filter fun v => now - w.span < v.now).map (memberRow token w)) := by
      refine (hrows.filter _).trans (List.Perm.of_eq ?_)
      rw [List.filter_map]
      rfl
    exact (hleft.cons _).trans (List.perm_append_singleton _ _).symm
  · intro v hv
    rcases List.mem_append.1 hv with hv | hv
    · exact Nat.lt_succ_of_lt (hnumbers v (List.mem_of_mem_filter hv))
    · rw [List.mem_singleton.1 hv]
      exact Nat.lt_succ_self n

end Holds

/-! ### Batches about records -/

/-- Only the views of a subject change its windows, if all events are about records. -/
theorem opsOn_window_opsOf {ev : Event} (hsub : IsRecord ev.subject) (now : Int)
    (tok : Window → String) (w : Window) (u : String) :
    opsOn ((Account.window w).key u) (opsOf now tok ev) =
      if ev.kind = .view ∧ ev.subject = u then enterWindow now tok u w else [] := by
  by_cases hs : ev.subject = u
  · subst hs
    rw [opsOn_opsOf_of_key now tok ev fun _ => key_inj]
    cases ev <;> simp [Account.ops, Event.kind, Event.subject]
  · rw [if_neg fun h => hs h.2]
    refine opsOn_opsOf_of_ne now tok fun a hkey => ?_
    rcases key_eq_key_iff.1 hkey with ⟨-, hu⟩ | ⟨rest, hx, hu⟩ | ⟨rest, hx, -⟩
    · exact hs hu
    · exact not_extends_of_isRecord hsub u (extends_iff.2 ⟨_, _, rest, hx, hu⟩)
    · cases hx

section Batch
variable {token : Nat → Window → String} {w : Window} {u : String} {now : Int} {n : Nat}
  {events : List Event} (hsub : ∀ ev ∈ events, IsRecord ev.subject)
include hsub

/-- **The events of a batch** can be carried out on the entry of a window, and keep what it
holds. -/
theorem holds_events (hdistinct : ∀ i j, token i w = token j w → i = j) {vs : List Occurrence}
    {slot : Option Entry} (h : Holds token w n (unexpired w now vs) slot) :
    ∃ slot',
      applyAll now (opsOn ((Account.window w).key u) (batchOps now token n events)) slot =
          .ok slot' ∧
        Holds token w (n + events.length)
          (unexpired w now (((⟨now, events⟩ : Batch).occurrences n).foldl (holdNext w u) vs))
          slot' := by
  induction events generalizing n vs slot with
  | nil => exact ⟨slot, rfl, h⟩
  | cons ev events ih =>
    obtain ⟨hev, hevents⟩ := List.forall_mem_cons.1 hsub
    rw [batchOps_cons, Counter.opsOn_append, opsOn_window_opsOf hev, occurrences_cons,
      List.foldl_cons, List.length_cons, Nat.add_comm events.length, ← Nat.add_assoc]
    simp only [Counter.applyAll_append_eq_ok_iff]
    -- The entry holds the views after the event, none of which has expired.
    have hstep : ∃ slot₁,
        applyAll now (if ev.kind = .view ∧ ev.subject = u then enterWindow now (token n) u w else [])
          slot = .ok slot₁ ∧
        Holds token w (n + 1) (unexpired w now (holdNext w u vs ⟨now, n, ev⟩)) slot₁ := by
      rw [unexpired_holdNext vs ⟨now, n, ev⟩]
      by_cases hview : ev.kind = .view ∧ ev.subject = u
      · rw [if_pos hview, holdNext, if_pos hview]
        exact h.view hdistinct now u ev
      · rw [if_neg hview, holdNext, if_neg hview]
        exact ⟨slot, rfl, h.mono (Nat.le_succ n)⟩
    obtain ⟨slot₁, hok, h₁⟩ := hstep
    obtain ⟨slot', hok', h'⟩ := ih hevents h₁
    exact ⟨slot', ⟨slot₁, hok, hok'⟩, h'⟩

/-- A batch changes the window of a subject exactly if it has views of it. -/
theorem opsOn_window_eq_nil_iff :
    opsOn ((Account.window w).key u) (batchOps now token n events) = [] ↔
      about .view u ((⟨now, events⟩ : Batch).occurrences n) = [] := by
  induction events generalizing n with
  | nil => exact iff_of_true rfl rfl
  | cons ev events ih =>
    obtain ⟨hev, hevents⟩ := List.forall_mem_cons.1 hsub
    rw [batchOps_cons, Counter.opsOn_append, opsOn_window_opsOf hev, occurrences_cons]
    unfold about
    by_cases hview : ev.kind = .view ∧ ev.subject = u
    · rw [if_pos hview, List.filter_cons, if_pos (decide_eq_true hview)]
      exact iff_of_false (by simp [enterWindow]) (List.cons_ne_nil _ _)
    · rw [if_neg hview, List.nil_append, List.filter_cons, if_neg (by simpa using hview)]
      exact ih hevents

end Batch

end PaperIndex.Metrics
