import PaperIndex.Proofs.Metrics.Windows

/-! # Isolation of subjects

A batch about one subject leaves the summaries of another one if the two have no key in common
(`summary_frame`). Subjects that are entangled do have one: a tally of views of one is a window of
the other, or the viewers of one are the downloaders of the other. So isolation holds exactly for
subjects that are not entangled (`isolated_iff`), which includes the URIs of records. -/

namespace PaperIndex.Metrics

open Counter (Memory Entry Op applyAll opsOn isLive)

variable {ς : Type} {e : Engine Memory ς}

/-! ### Subjects without a common key -/

/-- **A batch about one subject** leaves the entries of a subject that is not entangled with it. -/
theorem find?_record_of_not_entangled (he : e.counters = Memory.store) {u v : String} (hne : u ≠ v)
    (huv : ¬Entangled u v) {events : List Event} (hsub : ∀ ev ∈ events, ev.subject = u) (now : Int)
    (st : State Memory ς) (a : Account) :
    (e.record now events st).2.counters.entries.find? (a.key v) =
      st.counters.entries.find? (a.key v) := by
  rcases record_cases he now events st with ⟨-, -, hst⟩ | ⟨-, hst⟩
  · rw [hst]
    refine Memory.find?_exec_of_not_mem _ _ fun hmem => ?_
    obtain ⟨op, hop, hkey⟩ := List.mem_map.1 hmem
    obtain ⟨b, ev, hev, hb⟩ := key_of_mem_batchOps hop
    rw [hb, hsub ev hev] at hkey
    exact hne ((key_eq_key_iff_of_not_entangled huv).1 hkey).2
  · rw [hst]

theorem summary_frame (he : e.counters = Memory.store) {u v : String} (hne : u ≠ v)
    (huv : ¬Entangled u v) {events : List Event} (hsub : ∀ ev ∈ events, ev.subject = u)
    (now now' : Int) (st : State Memory ς) :
    e.summary now' v (e.record now events st).2.counters = e.summary now' v st.counters :=
  summary_congr he (find?_record_of_not_entangled he hne huv hsub now st)

/-! ### The first event -/

theorem checkEvent_eq_ok {ev : Event} (hsub : Text.isBlankText ev.subject = false)
    (hkind : ev.kind ≠ .dwell) : checkEvent ev = .ok () := by
  unfold checkEvent
  rw [hsub, if_neg Bool.false_ne_true]
  cases ev with
  | dwell uri millis => exact absurd rfl hkind
  | view uri actor => rfl
  | download uri actor => rfl
  | searchClick uri => rfl
  | searchDownload uri => rfl

theorem amount_eq_one {k : Tally} {ev : Event} {d : Nat} (hkind : ev.kind ≠ .dwell)
    (h : k.amount ev = some d) : d = 1 := by
  unfold Tally.amount at h
  split at h <;> cases h
  · rfl
  · rfl
  · rfl
  · rfl
  · exact absurd rfl hkind
  · rfl

/-- An account that is not there takes every event but perhaps a stay. -/
theorem exists_slot_first (a : Account) (now : Int) (token : Window → String) {ev : Event}
    (hkind : ev.kind ≠ .dwell) :
    ∃ slot, applyAll now (a.ops now token ev) none = .ok slot := by
  rcases a with k | k | w
  · rw [Account.ops]
    cases hd : k.amount ev with
    | none => exact ⟨none, rfl⟩
    | some d =>
      have hadd : (Op.add ((Account.tally k).key ev.subject) d).apply now none =
          .ok (some ⟨.tally (0 + d), none⟩) :=
        Counter.apply_add_eq_ok_iff.2 ⟨0, rfl, by rw [amount_eq_one hkind hd]; decide, rfl⟩
      exact ⟨_, Counter.applyAll_cons_eq_ok_iff.2 ⟨_, hadd, rfl⟩⟩
  · rw [Account.ops]
    cases k.member ev with
    | none => exact ⟨none, rfl⟩
    | some member => exact ⟨_, rfl⟩
  · cases ev with
    | view uri actor =>
      simp only [Account.ops, enterWindow, Counter.applyAll_cons_eq_ok_iff]
      exact ⟨_, _, rfl, _, rfl, _, Counter.apply_expire .., rfl⟩
    | download uri actor => exact ⟨none, rfl⟩
    | dwell uri millis => exact ⟨none, rfl⟩
    | searchClick uri => exact ⟨none, rfl⟩
    | searchDownload uri => exact ⟨none, rfl⟩

/-- **The first event** is carried out on every account of its subject. -/
theorem find?_record_first (he : e.counters = Memory.store) (ev : Event)
    (hsub : Text.isBlankText ev.subject = false) (hkind : ev.kind ≠ .dwell) (summaries : ς)
    (a : Account) :
    applyAll 0 (a.ops 0 (e.token 0) ev) none =
      .ok ((e.record 0 [ev] (Engine.start summaries)).2.counters.entries.find?
        (a.key ev.subject)) := by
  have hops : ∀ b : Account, opsOn (b.key ev.subject) (batchOps 0 e.token 0 [ev]) =
      b.ops 0 (e.token 0) ev := fun b => by
    rw [batchOps_cons, Counter.opsOn_append,
      opsOn_opsOf 0 (e.token 0) b (not_entangled_self ev.subject), if_pos rfl]
    exact List.append_nil _
  have hexec : (Memory.exec ⟨0, batchOps 0 e.token 0 [ev]⟩ .empty).1 = .ok () := by
    refine Memory.exec_eq_ok_iff.2 fun key => ?_
    by_cases hmem : key ∈ (batchOps 0 e.token 0 [ev]).map Op.key
    · obtain ⟨op, hop, rfl⟩ := List.mem_map.1 hmem
      obtain ⟨b, ev', hev', hb⟩ := key_of_mem_batchOps hop
      rw [List.mem_singleton.1 hev'] at hb
      rw [hb, hops]
      exact exists_slot_first b 0 (e.token 0) hkind
    · rw [Counter.opsOn_eq_nil_iff.2 hmem]
      exact ⟨_, rfl⟩
  have hrecord : (e.record 0 [ev] (Engine.start summaries)).2.counters =
      (Memory.exec ⟨0, batchOps 0 e.token 0 [ev]⟩ .empty).2 := by
    have hbatch : checkBatch [ev] = .ok () := by
      rw [checkBatch, checkEvent_eq_ok hsub hkind]
      rfl
    exact counters_record he 0 hbatch (Engine.start summaries)
  rw [hrecord, ← hops a]
  by_cases hmem : a.key ev.subject ∈ (batchOps 0 e.token 0 [ev]).map Op.key
  · exact Memory.find?_exec_of_mem hexec hmem
  · rw [Memory.find?_exec_of_not_mem _ _ hmem, Counter.opsOn_eq_nil_iff.2 hmem]
    rfl

/-! ### Subjects with a common key -/

theorem summary_start (he : e.counters = Memory.store) (v : String) :
    e.summary 0 v .empty = .ok (.ofAnswers v fun _ => 0) :=
  summary_of_answers (answersBy_memory he) (n := fun _ => 0) fun a => by cases a <;> rfl

/-- Isolation from the first batch about a subject. -/
theorem answers_of_isolated (he : e.counters = Memory.store) {v : String} {m : Memory}
    (h : e.summary 0 v m = e.summary 0 v .empty) :
    ∃ n : Account → Int, (∀ a : Account, m.answer 0 (a.query 0 v) = .ok (n a)) ∧
      ∀ k : Crowd, (n (.crowd k)).toNat = 0 := by
  rw [summary_start he] at h
  obtain ⟨n, hn, hs⟩ := (summary_eq_ok_iff (answersBy_memory he)).1 h
  refine ⟨n, hn, fun k => ?_⟩
  cases k with
  | viewers => exact (congrArg Summary.uniqueViews hs).symm
  | downloaders => exact (congrArg Summary.uniqueDownloads hs).symm

section Shared
variable (he : e.counters = Memory.store) (summaries : ς) {u v : String}
  (hu : Text.isBlankText u = false)
include he hu

/-- A tally of views under the key of a window. -/
theorem not_isolated_of_label {w : Window} (h : u = w.label ++ ":" ++ v) :
    e.summary 0 v (e.record 0 [.view u none] (Engine.start summaries)).2.counters ≠
      e.summary 0 v .empty := by
  intro heq
  obtain ⟨n, hn, -⟩ := answers_of_isolated he heq
  have hkey : (Account.tally .views).key u = (Account.window w).key v :=
    Account.key_eq_key_iff.2 (.inr (.inl ⟨_, rfl, h⟩))
  have hslot := find?_record_first he (.view u none) hu nofun summaries (.tally .views)
  have hfind : (e.record 0 [.view u none] (Engine.start summaries)).2.counters.entries.find?
      ((Account.window w).key v) = some ⟨.tally 1, none⟩ := hkey ▸ (Except.ok.inj hslot).symm
  have hkind := Memory.kind_eq_of_answer (hn (.window w)) (congrArg (Option.filter _) hfind)
  cases hkind

/-- A window under the key of a tally of views. -/
theorem not_isolated_of_labelled {w : Window} (h : v = w.label ++ ":" ++ u) :
    e.summary 0 v (e.record 0 [.view u none] (Engine.start summaries)).2.counters ≠
      e.summary 0 v .empty := by
  intro heq
  obtain ⟨n, hn, -⟩ := answers_of_isolated he heq
  have hkey : (Account.window w).key u = (Account.tally .views).key v :=
    Account.key_eq_key_iff.2 (.inr (.inr ⟨_, rfl, h⟩))
  have hslot := find?_record_first he (.view u none) hu nofun summaries (.window w)
  obtain ⟨t, ht⟩ : ∃ t,
      (e.record 0 [.view u none] (Engine.start summaries)).2.counters.entries.find?
        ((Account.tally .views).key v) = some ⟨.scores t, some (0 + w.span)⟩ := by
    obtain ⟨t, -, hsome⟩ := exists_scores_of_enterWindow hslot
    exact ⟨_, hkey ▸ hsome⟩
  have hlive : (e.record 0 [.view u none] (Engine.start summaries)).2.counters.live? 0
      ((Account.tally .views).key v) = some ⟨.scores t, some (0 + w.span)⟩ := by
    rw [Memory.live?, ht, Option.filter_some, if_pos (by simpa [isLive] using w.span_pos)]
  have hkind := Memory.kind_eq_of_answer (hn (.tally .views)) hlive
  cases hkind

/-- A crowd under the key of another crowd. -/
theorem not_isolated_of_crowd {k k' : Crowd} (ev : Event)
    (hkey : (Account.crowd k).key u = (Account.crowd k').key v) (hsub : ev.subject = u)
    (hkind : ev.kind ≠ .dwell) {member : String} (hmember : k.member ev = some member) :
    e.summary 0 v (e.record 0 [ev] (Engine.start summaries)).2.counters ≠
      e.summary 0 v .empty := by
  intro heq
  obtain ⟨n, hn, hzero⟩ := answers_of_isolated he heq
  subst hsub
  have hslot := find?_record_first he ev hu hkind summaries (.crowd k)
  rw [Account.ops, hmember] at hslot
  have hcrowd : IsCrowd {Sketch.hashOf member}
      ((e.record 0 [ev] (Engine.start summaries)).2.counters.entries.find?
        ((Account.crowd k').key v)) := by
    obtain ⟨slot, hobserve, hnil⟩ := Counter.applyAll_cons_eq_ok_iff.1 hslot
    rw [← hkey, ← Except.ok.inj hnil]
    exact isCrowd_observe (S := ∅) (.inl ⟨rfl, rfl⟩) hobserve
  have hone := (answer_crowd hcrowd).symm.trans (hn (.crowd k'))
  have hcard : Sketch.answered {Sketch.hashOf member} = 1 :=
    Sketch.answered_of_card_le (by rw [Finset.card_singleton]; decide)
  rw [hcard, Except.ok.injEq] at hone
  have := hzero k'
  omega

end Shared

/-- **Isolation holds exactly for subjects that are not entangled**: then every batch about the one
leaves the summary of the other one as it was, in every state that the engine can reach; otherwise
already the first view or download can change it. -/
theorem isolated_iff (he : e.counters = Memory.store) (summaries : ς) {u v : String} (hne : u ≠ v)
    (hu : Text.isBlankText u = false) :
    (∀ st, e.Reachable (Engine.start summaries) st → ∀ (now : Int) (events : List Event),
      (∀ ev ∈ events, ev.subject = u) →
        e.summary now v (e.record now events st).2.counters = e.summary now v st.counters) ↔
      ¬Entangled u v := by
  constructor
  · intro h hent
    have hfirst : ∀ ev : Event, ev.subject = u →
        e.summary 0 v (e.record 0 [ev] (Engine.start summaries)).2.counters =
          e.summary 0 v .empty := fun ev hev =>
      h _ .start 0 [ev] fun ev' hev' => List.mem_singleton.1 hev' ▸ hev
    rcases hent with (⟨w, hw⟩ | hd) | (⟨w, hw⟩ | hd)
    · exact not_isolated_of_label he summaries hu hw (hfirst _ rfl)
    · have hkey : (Account.crowd .viewers).key u = (Account.crowd .downloaders).key v :=
        Account.key_eq_key_iff.2 (.inr (.inl ⟨_, rfl, hd⟩))
      exact not_isolated_of_crowd he summaries hu (.view u (some "")) hkey rfl nofun rfl
        (hfirst _ rfl)
    · exact not_isolated_of_labelled he summaries hu hw (hfirst _ rfl)
    · have hkey : (Account.crowd .downloaders).key u = (Account.crowd .viewers).key v :=
        Account.key_eq_key_iff.2 (.inr (.inr ⟨_, rfl, hd⟩))
      exact not_isolated_of_crowd he summaries hu (.download u (some "")) hkey rfl nofun rfl
        (hfirst _ rfl)
  · intro huv st _ now events hsub
    exact summary_frame he hne huv hsub now now st

/-- Two records of one collection are isolated. -/
theorem isolated_records :
    let e : Engine Memory Unit := .withUsualLimit Memory.store none
    e.counters = Memory.store ∧ "at://a/b/c" ≠ "at://a/b/d" ∧
      Text.isBlankText "at://a/b/c" = false ∧
      ∀ st, e.Reachable (Engine.start ()) st → ∀ (now : Int) (events : List Event),
        (∀ ev ∈ events, ev.subject = "at://a/b/c") →
          e.summary now "at://a/b/d" (e.record now events st).2.counters =
            e.summary now "at://a/b/d" st.counters := by
  intro e
  have hc : IsRecord "at://a/b/c" :=
    ⟨⟨"a", "b", "c"⟩, RecordUri.parse_eq_ok_iff.2 ⟨rfl, by decide, by decide, by decide⟩⟩
  have hd : IsRecord "at://a/b/d" :=
    ⟨⟨"a", "b", "d"⟩, RecordUri.parse_eq_ok_iff.2 ⟨rfl, by decide, by decide, by decide⟩⟩
  refine ⟨rfl, by decide, not_blank_of_isRecord hc, ?_⟩
  exact (isolated_iff rfl () (by decide) (not_blank_of_isRecord hc)).2
    (not_entangled_of_isRecord hc hd)

/-- A view of `24h:x` makes the summary of `x` fail. -/
theorem not_isolated_label_x :
    let e : Engine Memory Unit := .withUsualLimit Memory.store none
    let st : State Memory Unit := Engine.start ()
    Text.isBlankText "24h:x" = false ∧ Text.isBlankText "x" = false ∧ "24h:x" ≠ "x" ∧
      e.Reachable st st ∧ (e.record 0 [.view "24h:x" none] st).1 = .ok () ∧
      e.summary 0 "x" st.counters = .ok (.ofAnswers "x" fun _ => 0) ∧
      e.summary 0 "x" (e.record 0 [.view "24h:x" none] st).2.counters =
        .error (.transient (.store (.wrongKind "views:24h:x" .tally .scores))) := by
  refine ⟨by decide, by decide, by decide, .start, ?_, ?_, ?_⟩
  · decide +kernel
  · decide +kernel
  · decide +kernel

end PaperIndex.Metrics
