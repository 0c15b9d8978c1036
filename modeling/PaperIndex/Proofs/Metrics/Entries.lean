import PaperIndex.Proofs.Metrics.Windows

/-! # The kinds of the entries

A key holds values of one kind after every run, unless its accounts are of two kinds
(`ofKind_run`). Only the keys with the lead of views have such accounts: the tally of the views of
`24h:x` stands under the key of the views of `x` within a day. Whichever comes first keeps the key,
the tally for ever and the window until it expires (`viewsEntry_run`). -/

namespace PaperIndex.Metrics

open Account
open Counter (Memory Entry Op applyAll opsOn isLive)

/-- The kind of the value of an account. -/
def Account.kind : Account → CounterKind
  | .tally _ => .tally
  | .crowd _ => .sketch
  | .window _ => .scores

/-- An entry of the given kind, if there is one. -/
def OfKind (kind : CounterKind) (slot : Option Entry) : Prop :=
  ∀ entry, slot = some entry → entry.value.kind = kind

theorem ofKind_none (kind : CounterKind) : OfKind kind none := by
  intro entry hentry
  cases hentry

/-- **The entry under the key of the views of a subject**: the tally of its views once it has been
viewed; before, the window of another subject, if the key is one of that subject's windows and it
has been viewed. -/
inductive ViewsEntry (v : String) (log : List Occurrence) : Option Entry → Prop
  | free (hv : about .view v log = [])
    (hu : ∀ (w : Window) u, v = w.label ++ ":" ++ u → about .view u log = []) :
    ViewsEntry v log none
  | tally (n : Int) (hv : about .view v log ≠ []) : ViewsEntry v log (some ⟨.tally n, none⟩)
  | window (t : Table String Int) (w : Window) (u : String) (last : Occurrence)
    (hv : about .view v log = []) (hlabel : v = w.label ++ ":" ++ u)
    (hlast : (about .view u log).getLast? = some last) :
    ViewsEntry v log (some ⟨.scores t, some (last.now + w.span)⟩)

/-! ### The key of the views of a subject -/

theorem key_views_iff {a : Account} {u v : String} :
    a.key u = (Account.tally .views).key v ↔
      (a = .tally .views ∧ u = v) ∨ ∃ w : Window, a = .window w ∧ v = w.label ++ ":" ++ u := by
  rw [key_eq_key_iff]
  simp only [extra?_eq_some_iff]
  constructor
  · rintro (h | ⟨rest, ⟨w, -, h, -⟩ | ⟨-, h, -⟩, -⟩ | ⟨rest, ⟨w, -, ha, rfl⟩ | ⟨h, -, -⟩, hv⟩)
    · exact .inl h
    · cases h
    · cases h
    · exact .inr ⟨w, ha, hv⟩
    · cases h
  · rintro (h | ⟨w, ha, hv⟩)
    · exact .inl h
    · exact .inr (.inr ⟨_, .inl ⟨w, trivial, ha, rfl⟩, hv⟩)

theorem key_window (w : Window) (u : String) :
    (Account.window w).key u = (Account.tally .views).key (w.label ++ ":" ++ u) :=
  key_views_iff.2 (.inr ⟨w, rfl, rfl⟩)

theorem label_inj {w w' : Window} {u u' : String}
    (h : w.label ++ ":" ++ u = w'.label ++ ":" ++ u') : w = w' ∧ u = u' := by
  have hkey : (Account.window w).key u = (Account.window w').key u' := by
    rw [key_window, key_window, h]
  rcases key_eq_key_iff.1 hkey with ⟨hw, hu⟩ | ⟨rest, hx, -⟩ | ⟨rest, hx, -⟩
  · exact ⟨Account.window.inj hw, hu⟩
  · cases hx
  · cases hx

theorem label_ne (w : Window) (u : String) : w.label ++ ":" ++ u ≠ u := fun h =>
  not_entangled_self u (.inl (.inl ⟨w, h.symm⟩))

/-! ### One event -/

theorem opsOn_views_self (now : Int) (token : Window → String) (v : String)
    (actor : Option String) :
    opsOn ((Account.tally .views).key v) (opsOf now token (.view v actor)) =
      [addOne ((Account.tally .views).key v)] :=
  opsOn_opsOf_of_key now token (.view v actor) fun _ => key_inj

theorem opsOn_views_window (now : Int) (token : Window → String) (w : Window) (u : String)
    (actor : Option String) :
    opsOn ((Account.tally .views).key (w.label ++ ":" ++ u)) (opsOf now token (.view u actor)) =
      enterWindow now token u w := by
  rw [← key_window]
  exact opsOn_opsOf_of_key now token (.view u actor) fun _ => key_inj

/-- Nothing but views of the subject and of those whose window the key is changes the key. -/
theorem opsOn_views_other (now : Int) (token : Window → String) {v : String} {ev : Event}
    (h : ∀ u, ev.kind = .view ∧ ev.subject = u → u ≠ v ∧ ∀ w : Window, v ≠ w.label ++ ":" ++ u) :
    opsOn ((Account.tally .views).key v) (opsOf now token ev) = [] := by
  rw [Counter.opsOn_eq_nil_iff, opsOf_eq]
  intro hmem
  obtain ⟨op, hop, hkey⟩ := List.mem_map.1 hmem
  obtain ⟨a, -, hop⟩ := List.mem_flatMap.1 hop
  have hcase := key_views_iff.1 ((key_of_mem_ops hop).symm.trans hkey)
  by_cases hview : ev.kind = .view
  · obtain ⟨hne, hlabel⟩ := h ev.subject ⟨hview, rfl⟩
    rcases hcase with ⟨-, hv⟩ | ⟨w, -, hv⟩
    · exact hne hv
    · exact hlabel w hv
  · rcases hcase with ⟨rfl, -⟩ | ⟨w, rfl, -⟩
    · cases ev <;> first | exact hview rfl | cases hop
    · cases ev <;> first | exact hview rfl | cases hop

theorem viewsEntry_snoc_other {v : String} {log : List Occurrence} {slot : Option Entry}
    {o : Occurrence} (h : ViewsEntry v log slot)
    (ho : ∀ u, o.event.kind = .view ∧ o.event.subject = u →
      u ≠ v ∧ ∀ w : Window, v ≠ w.label ++ ":" ++ u) : ViewsEntry v (log ++ [o]) slot := by
  have hsame : about .view v (log ++ [o]) = about .view v log := by
    rw [about_snoc, if_neg fun hv => (ho v hv).1 rfl, List.append_nil]
  have hwindow : ∀ (w : Window) u, v = w.label ++ ":" ++ u →
      about .view u (log ++ [o]) = about .view u log := fun w u hv => by
    rw [about_snoc, if_neg fun hu => (ho u hu).2 w hv, List.append_nil]
  cases h with
  | free hv hu => exact .free (hsame.trans hv) fun w u hvu => (hwindow w u hvu).trans (hu w u hvu)
  | tally n hv => exact .tally n (hsame ▸ hv)
  | window t w u last hv hlabel hlast =>
    exact .window t w u last (hsame.trans hv) hlabel ((hwindow w u hlabel).symm ▸ hlast)

section Event
variable {now : Int} {n : Nat} {v : String} {log : List Occurrence}
  {slot₀ slot slot' : Option Entry}
  (h : ViewsEntry v log slot₀)
  (hslot : slot = slot₀ ∨ slot = slot₀.filter fun entry => isLive now entry.expiry)
include h hslot

theorem eq_tally_of_viewed (hv : about .view v log ≠ []) : ∃ m, slot = some ⟨.tally m, none⟩ := by
  cases h with
  | free hnone hu => exact absurd hnone hv
  | window t w u last hnone hlabel hlast => exact absurd hnone hv
  | tally m hsome =>
    rcases hslot with rfl | rfl
    · exact ⟨m, rfl⟩
    · exact ⟨m, rfl⟩

/-- A view of the subject is counted in its tally, which has no expiry. -/
theorem viewsEntry_view {actor : Option String}
    (hok : (addOne ((Account.tally .views).key v)).apply now slot = .ok slot') :
    ViewsEntry v (log ++ [⟨now, n, .view v actor⟩]) slot' := by
  obtain ⟨m, hm, -, rfl⟩ := Counter.apply_add_eq_ok_iff.1 hok
  have hexpiry : Counter.expiryOf slot = none := by
    rcases hslot with rfl | rfl
    · cases h with
      | free hv hu => rfl
      | tally k hv => rfl
      | window t w u last hv hlabel hlast => cases hm
    · cases h with
      | free hv hu => rfl
      | tally k hv => rfl
      | window t w u last hv hlabel hlast =>
        rw [Option.filter_some] at hm ⊢
        split at hm
        · cases hm
        · next hdead => rw [if_neg hdead]; rfl
  rw [hexpiry]
  refine .tally _ ?_
  rw [about_snoc, if_pos ⟨rfl, rfl⟩]
  exact List.append_ne_nil_of_right_ne_nil _ (List.cons_ne_nil _ _)

/-- A view of a subject whose window the key is enters the window, unless the key is a tally. -/
theorem viewsEntry_window {token : Window → String} {w : Window} {u : String}
    {actor : Option String} (hlabel : v = w.label ++ ":" ++ u)
    (hok : applyAll now (enterWindow now token u w) slot = .ok slot') :
    ViewsEntry v (log ++ [⟨now, n, .view u actor⟩]) slot' := by
  obtain ⟨t, ht, rfl⟩ := exists_scores_of_enterWindow hok
  have hne : u ≠ v := fun huv => label_ne w u (hlabel ▸ huv).symm
  have hnone : about .view v log = [] := by
    by_contra hv
    obtain ⟨m, rfl⟩ := eq_tally_of_viewed h hslot hv
    cases ht
  refine .window _ w u ⟨now, n, .view u actor⟩ ?_ hlabel ?_
  · rw [about_snoc, if_neg fun hv => hne hv.2, List.append_nil]
    exact hnone
  · rw [about_snoc, if_pos ⟨rfl, rfl⟩]
    exact List.getLast?_concat

/-- **An event** puts the entry in order, or does not touch it. -/
theorem viewsEntry_event {token : Window → String} (ev : Event)
    (hok : applyAll now (opsOn ((Account.tally .views).key v) (opsOf now token ev)) slot =
      .ok slot') :
    ViewsEntry v (log ++ [⟨now, n, ev⟩]) slot' ∨
      (opsOn ((Account.tally .views).key v) (opsOf now token ev) = [] ∧
        ViewsEntry v (log ++ [⟨now, n, ev⟩]) slot₀) := by
  by_cases hself : ev.kind = .view ∧ ev.subject = v
  · obtain ⟨actor, rfl⟩ := exists_actor_of_view hself
    rw [opsOn_views_self] at hok
    obtain ⟨slot₁, hadd, hnil⟩ := Counter.applyAll_cons_eq_ok_iff.1 hok
    cases hnil
    exact .inl (viewsEntry_view h hslot hadd)
  by_cases hwindow : ∃ w : Window, ev.kind = .view ∧ v = w.label ++ ":" ++ ev.subject
  · obtain ⟨w, hkind, hlabel⟩ := hwindow
    obtain ⟨actor, hev⟩ := exists_actor_of_view ⟨hkind, rfl⟩
    generalize ev.subject = u at hev hlabel
    subst hev hlabel
    rw [opsOn_views_window] at hok
    exact .inl (viewsEntry_window h hslot rfl hok)
  have hother : ∀ u, ev.kind = .view ∧ ev.subject = u →
      u ≠ v ∧ ∀ w : Window, v ≠ w.label ++ ":" ++ u := by
    rintro u ⟨hkind, rfl⟩
    exact ⟨fun hv => hself ⟨hkind, hv⟩, fun w hv => hwindow ⟨w, hkind, hv⟩⟩
  exact .inr ⟨opsOn_views_other now token hother, viewsEntry_snoc_other h hother⟩

end Event

/-! ### Batches and runs -/

/-- The events of a batch in turn, on the entry before or on what is live of it. -/
theorem viewsEntry_events {token : Nat → Window → String} {now : Int} {events : List Event}
    {n : Nat} {v : String} {log : List Occurrence} {slot₀ slot slot' : Option Entry}
    (h : ViewsEntry v log slot₀)
    (hslot : slot = slot₀ ∨ slot = slot₀.filter fun entry => isLive now entry.expiry)
    (hok : applyAll now (opsOn ((Account.tally .views).key v) (batchOps now token n events)) slot =
      .ok slot') :
    ViewsEntry v (log ++ (⟨now, events⟩ : Batch).occurrences n) slot' ∨
      (opsOn ((Account.tally .views).key v) (batchOps now token n events) = [] ∧
        ViewsEntry v (log ++ (⟨now, events⟩ : Batch).occurrences n) slot₀) := by
  -- Until an event changes the key, the run leaves `slot₀` where it is, lapsed or not; from then on
  -- the entry is the one that the pipeline works on.
  induction events generalizing n log slot₀ slot with
  | nil =>
    refine .inr ⟨rfl, ?_⟩
    rwa [show (⟨now, []⟩ : Batch).occurrences n = [] from rfl, List.append_nil]
  | cons ev events ih =>
    rw [batchOps_cons, Counter.opsOn_append] at hok ⊢
    obtain ⟨slot₁, hev, hrest⟩ := Counter.applyAll_append_eq_ok_iff.1 hok
    rw [occurrences_cons, List.append_cons]
    rcases viewsEntry_event (n := n) h hslot ev hev with h₁ | ⟨hnil, h₁⟩
    · rcases ih h₁ (.inl rfl) hrest with h₂ | ⟨hnil, h₂⟩
      · exact .inl h₂
      · rw [hnil] at hrest
        cases hrest
        exact .inl h₂
    · rw [hnil] at hev
      cases hev
      rw [hnil, List.nil_append]
      exact ih h₁ hslot hrest

theorem viewsEntry_exec {token : Nat → Window → String} {now : Int} {events : List Event} {n : Nat}
    {v : String} {log : List Occurrence} {m : Memory}
    (h : ViewsEntry v log (m.entries.find? ((Account.tally .views).key v)))
    (hexec : (Memory.exec ⟨now, batchOps now token n events⟩ m).1 = .ok ()) :
    ViewsEntry v (log ++ (⟨now, events⟩ : Batch).occurrences n)
      ((Memory.exec ⟨now, batchOps now token n events⟩ m).2.entries.find?
        ((Account.tally .views).key v)) := by
  by_cases hmem : (Account.tally .views).key v ∈ (batchOps now token n events).map Op.key
  · have hok := Memory.find?_exec_of_mem hexec hmem
    refine (viewsEntry_events h (.inr rfl) hok).resolve_right fun hnil => ?_
    exact Counter.opsOn_eq_nil_iff.1 hnil.1 hmem
  · have hok : applyAll now (opsOn ((Account.tally .views).key v) (batchOps now token n events))
        (m.entries.find? ((Account.tally .views).key v)) =
        .ok (m.entries.find? ((Account.tally .views).key v)) := by
      rw [Counter.opsOn_eq_nil_iff.2 hmem]
      rfl
    rw [Memory.find?_exec_of_not_mem _ m hmem]
    exact (viewsEntry_events h (.inl rfl) hok).elim id And.right

/-- **After every run** the entry under the key of the views of a subject is as the log says. -/
theorem viewsEntry_run {ς : Type} {e : Engine Memory ς} (he : e.counters = Memory.store)
    (bs : List Batch) (summaries : ς) (v : String) :
    ViewsEntry v (e.log bs (Engine.start summaries))
      ((e.run bs (Engine.start summaries)).counters.entries.find?
        ((Account.tally .views).key v)) :=
  run_induction he
    (Q := fun log m => ViewsEntry v log (m.entries.find? ((Account.tally .views).key v)))
    (.free rfl fun _ _ _ => rfl) (fun _ _ _ _ h hexec => viewsEntry_exec h hexec) bs

/-! ### The other keys -/

theorem ofKind_ops {a : Account} {now : Int} {token : Window → String} {ev : Event}
    {slot slot' : Option Entry} (h : OfKind a.kind slot)
    (hok : applyAll now (a.ops now token ev) slot = .ok slot') : OfKind a.kind slot' := by
  rcases a with k | k | w
  · rw [Account.ops] at hok
    cases hd : k.amount ev with
    | none =>
      rw [hd] at hok
      cases hok
      exact h
    | some d =>
      rw [hd] at hok
      obtain ⟨slot₁, hadd, hnil⟩ := Counter.applyAll_cons_eq_ok_iff.1 hok
      obtain ⟨n, -, -, rfl⟩ := Counter.apply_add_eq_ok_iff.1 hadd
      cases hnil
      rintro entry ⟨⟩
      rfl
  · rw [Account.ops] at hok
    cases hm : k.member ev with
    | none =>
      rw [hm] at hok
      cases hok
      exact h
    | some member =>
      rw [hm] at hok
      obtain ⟨slot₁, hobserve, hnil⟩ := Counter.applyAll_cons_eq_ok_iff.1 hok
      obtain ⟨s, -, rfl⟩ := Counter.apply_observe_eq_ok_iff.1 hobserve
      cases hnil
      rintro entry ⟨⟩
      rfl
  · by_cases hview : ev.kind = .view
    · obtain ⟨actor, hev⟩ := exists_actor_of_view ⟨hview, rfl⟩
      rw [hev] at hok
      obtain ⟨t, -, rfl⟩ := exists_scores_of_enterWindow hok
      rintro entry ⟨⟩
      rfl
    · cases ev <;> first | exact absurd rfl hview | (cases hok; exact h)

section Kind
variable {key : String} {kind : CounterKind}
  (hkey : ∀ (a : Account) u, a.key u = key → a.kind = kind)
include hkey

theorem ofKind_event {now : Int} {token : Window → String} {ev : Event} {slot slot' : Option Entry}
    (h : OfKind kind slot) (hok : applyAll now (opsOn key (opsOf now token ev)) slot = .ok slot') :
    OfKind kind slot' := by
  by_cases hex : ∃ a : Account, a.key ev.subject = key
  · obtain ⟨a, ha⟩ := hex
    have hkind := hkey a _ ha
    subst ha hkind
    rw [opsOn_opsOf_of_key now token ev fun b => key_inj] at hok
    exact ofKind_ops h hok
  · rw [opsOn_opsOf_of_ne now token fun a ha => hex ⟨a, ha⟩] at hok
    cases hok
    exact h

theorem ofKind_events {now : Int} {token : Nat → Window → String} {events : List Event} {n : Nat}
    {slot slot' : Option Entry} (h : OfKind kind slot)
    (hok : applyAll now (opsOn key (batchOps now token n events)) slot = .ok slot') :
    OfKind kind slot' := by
  induction events generalizing n slot with
  | nil =>
    cases hok
    exact h
  | cons ev events ih =>
    rw [batchOps_cons, Counter.opsOn_append] at hok
    obtain ⟨slot₁, hev, hrest⟩ := Counter.applyAll_append_eq_ok_iff.1 hok
    exact ih (ofKind_event hkey h hev) hrest

/-- **A key whose accounts are of one kind** holds values of that kind after every run. -/
theorem ofKind_run {ς : Type} {e : Engine Memory ς} (he : e.counters = Memory.store)
    (bs : List Batch) (summaries : ς) :
    OfKind kind ((e.run bs (Engine.start summaries)).counters.entries.find? key) := by
  refine run_induction he (Q := fun _ m => OfKind kind (m.entries.find? key)) ?_ ?_ bs
  · exact ofKind_none kind
  · intro b n log m h hexec
    by_cases hmem : key ∈ (batchOps b.now e.token n b.events).map Op.key
    · refine ofKind_events hkey (fun entry hentry => ?_) (Memory.find?_exec_of_mem hexec hmem)
      exact h entry (Option.filter_eq_some_iff.1 hentry).1
    · rw [Memory.find?_exec_of_not_mem _ m hmem]
      exact h

end Kind

theorem kind_eq_of_key_eq {a b : Account} {u v : String} (h : a.key u = b.key v)
    (hviews : b ≠ .tally .views) (hwindow : ∀ w : Window, b ≠ .window w) : a.kind = b.kind := by
  rcases key_eq_key_iff.1 h with ⟨rfl, -⟩ | ⟨rest, hx, -⟩ | ⟨rest, hx, -⟩
  · rfl
  · rcases extra?_eq_some_iff.1 hx with ⟨w, -, hb, -⟩ | ⟨rfl, rfl, -⟩
    · exact absurd hb (hwindow w)
    · rfl
  · rcases extra?_eq_some_iff.1 hx with ⟨w, hb, -, -⟩ | ⟨rfl, rfl, -⟩
    · exact absurd hb hviews
    · rfl

end PaperIndex.Metrics
