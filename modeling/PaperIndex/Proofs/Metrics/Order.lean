import PaperIndex.Proofs.Counter.Agreement
import PaperIndex.Proofs.Metrics.Effect
import PaperIndex.Proofs.Metrics.Session

/-! # The order of the events of a batch

A batch is as good as any other order of its events, and as the events one by one at the same
instant: all are accepted or none, and what is left cannot be told apart by anything that is
requested later (`record_unordered`).

The states that are left differ in the names of the members of windows, but their entries have the
same contents (`Alike`). The answers to all questions come from the contents (`Alike.sameAnswers`),
and every request keeps them the same (`Alike.serve`). -/

namespace PaperIndex.Metrics

open Counter (Memory Query Entry isLive)

/-! ### Reads -/

section Reads
variable {token : Nat → Window → String} {n n' : Nat} {c : Content} {slot slot' : Option Entry}

theorem any_live_of_content (h : Content.Of token n c slot) (h' : Content.Of token n' c slot')
    (now : Int) : slot'.any (fun entry => isLive now entry.expiry) =
      slot.any fun entry => isLive now entry.expiry := by
  cases h <;> cases h' <;> rfl

variable {m m' : Memory} {C : String → Content} (h : Contents token n m C)
  (h' : Contents token n' m' C)
include h h'

/-- **An answer** depends on the content under its key only. -/
theorem answer_of_contents (now : Int) (q : Query) : m'.answer now q = m.answer now q := by
  unfold Memory.answer Memory.live?
  have hq := (h q.key).live now
  have hq' := (h' q.key).live now
  generalize (m.entries.find? q.key).filter _ = slot at hq
  generalize (m'.entries.find? q.key).filter _ = slot' at hq'
  generalize (C q.key).live now = c at hq hq'
  cases hq with
  | free => cases hq'; rfl
  | tally k => cases hq'; rfl
  | crowd S => cases hq'; rfl
  | window t lapse hscores hdrawn =>
    cases hq' with
    | window t' _ hscores' hdrawn' =>
      have hperm : (t'.rows.map Prod.snd).Perm (t.rows.map Prod.snd) :=
        Multiset.coe_eq_coe.1 (hscores'.trans hscores.symm)
      cases q with
      | tally key => rfl
      | count key => rfl
      | within key low high =>
        have hcount := hperm.countP_eq fun x => low ≤ x && x ≤ high
        rw [List.countP_map, List.countP_map] at hcount
        exact congrArg (fun k : Nat => Except.ok (k : Int)) hcount

theorem read_of_contents (qs : List Query) (now : Int) :
    Memory.read qs now m' = Memory.read qs now m := by
  unfold Memory.read
  rw [show m'.answer now = m.answer now from funext (answer_of_contents h h' now)]

theorem scan_of_contents (lead : String) (now : Int) :
    Memory.scan lead now m' = Memory.scan lead now m :=
  Counter.scan_congr (fun key => any_live_of_content (h key) (h' key) now) lead

end Reads

/-! ### Batches -/

section Batches
variable {ς : Type} {e : Engine Memory ς} (he : e.counters = Memory.store)
  (hdistinct : ∀ i j w w', e.token i w = e.token j w' → i = j) {st : State Memory ς}
  {C : String → Content} (hC : Contents e.token st.fresh st.counters C) {now : Int}
include he hdistinct hC

/-- **A batch is accepted** exactly if its events pass their checks and all changes are possible. -/
theorem record_ok_iff {events : List Event} : (e.record now events st).1.isOk = true ↔
    (∀ ev ∈ events, checkEvent ev = .ok ()) ∧
      ∀ key, ∃ c, Content.after now (changesAt key events) (some (C key)) = some c := by
  rw [isOk_record_iff he, exec_ok_iff hdistinct hC events, checkBatch_eq_ok_iff]

/-- **A batch that is accepted** makes its changes. -/
theorem exists_contents_record {events : List Event}
    (hok : (e.record now events st).1.isOk = true) :
    ∃ C', (∀ key, Content.after now (changesAt key events) (some (C key)) = some (C' key)) ∧
      Contents e.token (st.fresh + events.length) (e.record now events st).2.counters C' ∧
      (e.record now events st).2.summaries = st.summaries ∧
      (e.record now events st).2.fresh = st.fresh + events.length := by
  rcases record_cases he now events st with ⟨-, hexec, hst⟩ | ⟨hfail, -⟩
  · obtain ⟨C', hC', hcontents⟩ := exists_contents_exec hdistinct hC hexec
    rw [hst]
    exact ⟨C', hC', hcontents, rfl, rfl⟩
  · rw [hfail] at hok
    cases hok

end Batches

/-! ### Alike states -/

/-- **Two states are alike** if their entries have the same contents, and they have the same
summaries and the same number for the next event. -/
structure Alike {ς : Type} (e : Engine Memory ς) (C : String → Content) (st st' : State Memory ς) :
    Prop where
  left : Contents e.token st.fresh st.counters C
  right : Contents e.token st.fresh st'.counters C
  fresh : st'.fresh = st.fresh
  summaries : st'.summaries = st.summaries

namespace Alike

variable {ς : Type} {e : Engine Memory ς} (he : e.counters = Memory.store)
  (hdistinct : ∀ i j w w', e.token i w = e.token j w' → i = j) {st st' : State Memory ς}
  {C : String → Content} (h : Alike e C st st')
include he h

theorem sameReads : e.SameReads st.counters st'.counters where
  read qs now := by
    rw [he]
    exact read_of_contents h.left h.right qs now
  scan lead now := by
    rw [he]
    exact scan_of_contents h.left h.right lead now

include hdistinct

theorem accepts (now : Int) (events : List Event) :
    (e.record now events st').1.isOk = (e.record now events st).1.isOk := by
  have hright : Contents e.token st'.fresh st'.counters C := h.fresh ▸ h.right
  rw [Bool.eq_iff_iff, record_ok_iff he hdistinct h.left, record_ok_iff he hdistinct hright]

/-- **Alike states** have the same answers. -/
theorem sameAnswers : e.SameAnswers st st' where
  summary := (h.sameReads he).summary
  viewCount := (h.sameReads he).viewCount
  trending := (h.sameReads he).trending
  flush now := (Engine.flush_same (h.sameReads he) h.summaries now).1
  accepts := h.accepts he hdistinct
  summaries := h.summaries

/-- Batches with the same changes, one in each of two alike states. -/
theorem record {now : Int} {events events' : List Event}
    (hlength : events'.length = events.length)
    (hchanges : ∀ key c, Content.after now (changesAt key events') c =
      Content.after now (changesAt key events) c)
    (hok : (e.record now events st).1.isOk = true)
    (hok' : (e.record now events' st').1.isOk = true) :
    ∃ C', Alike e C' (e.record now events st).2 (e.record now events' st').2 := by
  have hright : Contents e.token st'.fresh st'.counters C := h.fresh ▸ h.right
  obtain ⟨C₁, hafter, hcontents, hsummaries, hfresh⟩ :=
    exists_contents_record he hdistinct h.left hok
  obtain ⟨C₂, hafter', hcontents', hsummaries', hfresh'⟩ :=
    exists_contents_record he hdistinct hright hok'
  have hsame : C₂ = C₁ := funext fun key => by
    rw [← Option.some_inj, ← hafter key, ← hafter' key, hchanges]
  rw [h.fresh, hlength] at hcontents' hfresh'
  exact ⟨C₁, hfresh ▸ hcontents, hfresh ▸ hsame ▸ hcontents', hfresh'.trans hfresh.symm,
    hsummaries'.trans (h.summaries.trans hsummaries.symm)⟩

/-- **Every request** keeps states alike. -/
theorem serve (now : Int) (q : Request) :
    ∃ C', Alike e C' (e.serve now q st).2 (e.serve now q st').2 := by
  cases q with
  | record events =>
    have haccepts := h.accepts he hdistinct now events
    cases hok : (e.record now events st).1.isOk with
    | true => exact h.record he hdistinct rfl (fun _ _ => rfl) hok (haccepts.trans hok)
    | false =>
      refine ⟨C, ?_⟩
      change Alike e C (e.record now events st).2 (e.record now events st').2
      rw [snd_record_of_refused he hok, snd_record_of_refused he (haccepts.trans hok)]
      exact h
  | summary uri => exact ⟨C, h⟩
  | viewCount uri => exact ⟨C, h⟩
  | trending w limit => exact ⟨C, h⟩
  | flush =>
    have hflush := (Engine.flush_same (h.sameReads he) h.summaries now).2
    refine ⟨C, ?_⟩
    change Alike e C (e.flush now st).2 (e.flush now st').2
    rw [Engine.flush_eq now st, Engine.flush_eq now st']
    exact ⟨h.left, h.right, h.fresh, hflush⟩

/-- **Alike states** cannot be told apart. -/
theorem indistinct : e.Indistinct st st' := by
  intro qs
  induction qs generalizing st st' C with
  | nil => exact h.sameAnswers he hdistinct
  | cons q qs ih =>
    obtain ⟨C', h'⟩ := h.serve he hdistinct q.1 q.2
    exact ih h'

end Alike

/-! ### One by one -/

/-- Events one by one: each is a batch of its own at the same instant. -/
def singles (now : Int) (events : List Event) : List Batch := events.map fun ev => ⟨now, [ev]⟩

section Unordered
variable {ς : Type} {e : Engine Memory ς} (he : e.counters = Memory.store)
  (hdistinct : ∀ i j w w', e.token i w = e.token j w' → i = j)
include he hdistinct

/-- **Reachable states** have contents. -/
theorem exists_contents_of_reachable {summaries : ς} {st : State Memory ς}
    (h : e.Reachable (Engine.start summaries) st) :
    ∃ C, Contents e.token st.fresh st.counters C := by
  induction h with
  | start => exact ⟨fun _ => .free, fun _ => .free⟩
  | @record st now events _ ih =>
    obtain ⟨C, hC⟩ := ih
    cases hok : (e.record now events st).1.isOk with
    | true =>
      obtain ⟨C', -, hC', -, hfresh⟩ := exists_contents_record he hdistinct hC hok
      exact ⟨C', hfresh ▸ hC'⟩
    | false =>
      rw [snd_record_of_refused he hok]
      exact ⟨C, hC⟩
  | flush now _ ih =>
    rw [Engine.flush_eq]
    exact ih

/-- **Events one by one**, if their changes are possible, are all accepted and make their changes. -/
theorem run_singles {now : Int} {events : List Event}
    (hcheck : ∀ ev ∈ events, checkEvent ev = .ok ()) {st : State Memory ς}
    {C C' : String → Content} (hC : Contents e.token st.fresh st.counters C)
    (hafter : ∀ key, Content.after now (changesAt key events) (some (C key)) = some (C' key)) :
    e.log (singles now events) st = (⟨now, events⟩ : Batch).occurrences st.fresh ∧
      Contents e.token (st.fresh + events.length) (e.run (singles now events) st).counters C' ∧
      (e.run (singles now events) st).summaries = st.summaries ∧
      (e.run (singles now events) st).fresh = st.fresh + events.length := by
  induction events generalizing st C with
  | nil =>
    have hsame : C = C' := funext fun key => Option.some.inj (hafter key)
    exact ⟨rfl, hsame ▸ hC, rfl, rfl⟩
  | cons ev events ih =>
    obtain ⟨hev, hevents⟩ := List.forall_mem_cons.1 hcheck
    have hsingle : ∀ key, changesAt key [ev] = (changeAt key ev).toList := fun key => by
      rw [changesAt_cons]
      exact List.append_nil _
    -- The first event is possible, since all of them are.
    have hfirst : ∀ key, ∃ c, Content.after now (changesAt key [ev]) (some (C key)) = some c := by
      intro key
      rw [hsingle]
      refine Option.ne_none_iff_exists'.1 fun hnone => ?_
      have hkey := hafter key
      rw [changesAt_cons, Content.after_append, hnone, Content.after_none] at hkey
      cases hkey
    have hok : (e.record now [ev] st).1.isOk = true :=
      (record_ok_iff he hdistinct hC).2 ⟨List.forall_mem_singleton.2 hev, hfirst⟩
    obtain ⟨C₁, hC₁, hcontents, hsummaries, hfresh⟩ := exists_contents_record he hdistinct hC hok
    have hrest : ∀ key, Content.after now (changesAt key events) (some (C₁ key)) =
        some (C' key) := fun key => by
      rw [← hafter key, changesAt_cons, Content.after_append, ← hsingle, hC₁]
    obtain ⟨hlog, hrun, hkept, hnumber⟩ := ih hevents (hfresh ▸ hcontents) hrest
    have hsum : st.fresh + (ev :: events).length = st.fresh + 1 + events.length := by
      rw [List.length_cons]
      omega
    rw [hfresh] at hlog hrun hnumber
    rw [hsum, occurrences_cons]
    refine ⟨?_, hrun, hkept.trans hsummaries, hnumber⟩
    rw [singles, List.map_cons, Engine.log, if_pos hok]
    exact congrArg _ hlog

/-- **A batch is a multiset of events.** In every state that can be reached, at every instant,
with tokens that are never drawn twice, a batch is accepted if and only if any other order of its
events is. If it is refused, nothing changes. If it is accepted, nothing that is requested later
tells whether the events were recorded in this order, in the other one, or one by one in the other
one, all of which are accepted then. -/
theorem record_unordered {summaries : ς} {st : State Memory ς}
    (hst : e.Reachable (Engine.start summaries) st) (now : Int) {events events' : List Event}
    (hperm : events.Perm events') :
    let r := e.record now events st
    let r' := e.record now events' st
    r'.1.isOk = r.1.isOk ∧ (r.1.isOk = false → r.2 = st ∧ r'.2 = st) ∧
      (r.1.isOk = true → e.Indistinct r.2 r'.2 ∧
        e.log (singles now events') st = (⟨now, events'⟩ : Batch).occurrences st.fresh ∧
        e.Indistinct r.2 (e.run (singles now events') st)) := by
  intro r r'
  obtain ⟨C, hC⟩ := exists_contents_of_reachable he hdistinct hst
  have hself : Alike e C st st := ⟨hC, hC, rfl, rfl⟩
  have hafter := fun key c => (after_changesAt_perm hperm now key c).symm
  have hverdict : r'.1.isOk = r.1.isOk := by
    rw [Bool.eq_iff_iff, record_ok_iff he hdistinct hC, record_ok_iff he hdistinct hC]
    simp only [hafter, hperm.mem_iff]
  refine ⟨hverdict, fun hrefused => ⟨?_, ?_⟩, fun hok => ?_⟩
  · exact snd_record_of_refused he hrefused
  · exact snd_record_of_refused he (hverdict.trans hrefused)
  · have hok' := hverdict.trans hok
    obtain ⟨C₁, halike⟩ := hself.record he hdistinct hperm.length_eq.symm hafter hok hok'
    obtain ⟨C₂, hC₂, hcontents, hsummaries, hfresh⟩ := exists_contents_record he hdistinct hC hok
    have hcheck := ((record_ok_iff he hdistinct hC).1 hok').1
    obtain ⟨hlog, heach, hkept, hnumber⟩ :=
      run_singles he hdistinct hcheck hC fun key => (hafter key _).trans (hC₂ key)
    rw [← hperm.length_eq] at heach hnumber
    have halike' : Alike e C₂ r.2 (e.run (singles now events') st) :=
      ⟨hfresh ▸ hcontents, hfresh ▸ heach, hnumber.trans hfresh.symm, hkept.trans hsummaries.symm⟩
    exact ⟨halike.indistinct he hdistinct, hlog, halike'.indistinct he hdistinct⟩

end Unordered

/-- Two views and a reading time, recorded ten days before the view that there is already. -/
theorem record_unordered_clock_back :
    let e : Engine Memory SinkMemory := .withUsualLimit Memory.store (some SinkMemory.sink)
    let st := (e.record 864000000 [.view "x" none] (Engine.start .empty)).2
    let events : List Event := [.view "x" none, .dwell "x" 3, .view "y" none]
    let events' : List Event := [.dwell "x" 3, .view "y" none, .view "x" none]
    e.counters = Memory.store ∧ (∀ i j w w', e.token i w = e.token j w' → i = j) ∧
      e.Reachable (Engine.start .empty) st ∧ events.Perm events' ∧
      (e.record 0 events st).1.isOk = true ∧ (e.record 0 events' st).1.isOk = true ∧
      e.Indistinct (e.record 0 events st).2 (e.record 0 events' st).2 ∧
      e.Indistinct (e.record 0 events st).2 (e.run (singles 0 events') st) := by
  intro e st events events'
  have he : e.counters = Memory.store := rfl
  have hdistinct : ∀ i j w w', e.token i w = e.token j w' → i = j := fun i j w _ =>
    token_withUsualLimit_inj w i j
  have hst : e.Reachable (Engine.start .empty) st := .record 864000000 [.view "x" none] .start
  have hperm : events.Perm events' := by
    unfold events events'
    decide
  have hok : (e.record 0 events st).1.isOk = true := by
    unfold e events st
    decide +kernel
  obtain ⟨hverdict, -, hsame⟩ := record_unordered he hdistinct hst 0 hperm
  obtain ⟨hbatch, -, hsingles⟩ := hsame hok
  exact ⟨he, hdistinct, hst, hperm, hok, hverdict.trans hok, hbatch, hsingles⟩

end PaperIndex.Metrics
