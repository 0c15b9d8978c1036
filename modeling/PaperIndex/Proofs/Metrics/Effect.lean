import PaperIndex.Proofs.Metrics.Content
import PaperIndex.Proofs.Metrics.Windows

/-! # Batches and the contents of entries

What a batch does to the entries in memory is what its changes do to their contents, and it can be
carried out exactly if all the changes are possible (`exec_ok_iff`, `exists_contents_exec`). -/

namespace PaperIndex.Metrics

open Account
open Counter (Memory Entry Op applyAll opsOn isLive valueOr expiryOf)

namespace Content

/-- **An entry has a content**, and the names of its members were drawn before a number. -/
inductive Of (token : Nat → Window → String) (n : Nat) : Content → Option Entry → Prop
  | free : Of token n free none
  | tally (k : Nat) : Of token n (tally k) (some ⟨.tally k, none⟩)
  | crowd (S : Finset UInt64) : Of token n (crowd S) (some ⟨.sketch (.ofSet S), none⟩)
  | window {scores} (t : Table String Int) (lapse : Int)
    (hscores : (t.rows.map Prod.snd : Multiset Int) = scores)
    (hdrawn : ∀ name ∈ t.keys, ∃ i k w, k < n ∧ name = memberName i (token k w)) :
    Of token n (window scores lapse) (some ⟨.scores t, some lapse⟩)

/-- Changes are possible with an outcome, and the operations leave an entry that has this content,
or they are not, and the operations fail. -/
inductive Yields (token : Nat → Window → String) (n : Nat) :
    Option Content → Except StoreError (Option Entry) → Prop
  | done {c slot} (h : Of token n c slot) : Yields token n (some c) (.ok slot)
  | failed (err : StoreError) : Yields token n none (.error err)

section Entries
variable {token : Nat → Window → String} {n : Nat} {c : Content} {slot : Option Entry} {now : Int}

theorem Of.mono (h : Of token n c slot) {n' : Nat} (hle : n ≤ n') : Of token n' c slot := by
  cases h with
  | free => exact .free
  | tally k => exact .tally k
  | crowd S => exact .crowd S
  | window t lapse hscores hdrawn =>
    refine .window t lapse hscores fun name hname => ?_
    obtain ⟨i, k, w, hk, rfl⟩ := hdrawn name hname
    exact ⟨i, k, w, hk.trans_le hle, rfl⟩

theorem Of.live (h : Of token n c slot) (now : Int) :
    Of token n (c.live now) (slot.filter fun entry => isLive now entry.expiry) := by
  cases h with
  | free => exact .free
  | tally k => exact .tally k
  | crowd S => exact .crowd S
  | window t lapse hscores hdrawn =>
    simp only [Content.live, Option.filter_some, isLive, Option.all_some, decide_eq_true_eq]
    by_cases hlt : now < lapse
    · rw [if_pos hlt, if_pos hlt]
      exact .window t lapse hscores hdrawn
    · rw [if_neg hlt, if_neg hlt]
      exact .free

theorem Yields.intro {c : Option Content} {r : Except StoreError (Option Entry)}
    (hdone : ∀ c', c = some c' → ∃ slot, r = .ok slot ∧ Of token n c' slot)
    (hok : ∀ slot, r = .ok slot → ∃ c', c = some c') : Yields token n c r := by
  cases r with
  | ok slot =>
    obtain ⟨c', rfl⟩ := hok slot rfl
    obtain ⟨slot', hslot, h⟩ := hdone c' rfl
    obtain rfl := Except.ok.inj hslot
    exact .done h
  | error err =>
    cases c with
    | none => exact .failed err
    | some c' =>
      obtain ⟨slot, hslot, -⟩ := hdone c' rfl
      cases hslot

/-! ### One change -/

theorem Of.value_of_number (h : Of token n c slot) {k : Nat} (hk : c.number? = some k) :
    valueOr (.tally 0) slot = .tally k ∧ expiryOf slot = none := by
  cases h with
  | free => cases hk; exact ⟨rfl, rfl⟩
  | tally k => cases hk; exact ⟨rfl, rfl⟩
  | crowd S => cases hk
  | window t lapse hscores hdrawn => cases hk

theorem Of.number_of_value (h : Of token n c slot) {m : Int}
    (hm : valueOr (.tally 0) slot = .tally m) : ∃ k : Nat, c.number? = some k ∧ m = k := by
  cases h with
  | free => cases hm; exact ⟨0, rfl, rfl⟩
  | tally k => cases hm; exact ⟨k, rfl, rfl⟩
  | crowd S => cases hm
  | window t lapse hscores hdrawn => cases hm

theorem yields_add (h : Of token n c slot) (key : String) (d : Nat) :
    Yields token n (c.apply now (.add d)) ((Op.add key d).apply now slot) := by
  refine .intro (fun c' hc' => ?_) fun slot' hslot' => ?_
  · obtain ⟨k, hk, hlt, rfl⟩ := apply_add_eq_some_iff.1 hc'
    obtain ⟨hvalue, hexpiry⟩ := h.value_of_number hk
    refine ⟨_, Counter.apply_add_eq_ok_iff.2 ⟨k, hvalue, Counter.fits_natCast_iff.2 hlt, rfl⟩, ?_⟩
    rw [hexpiry]
    exact .tally (k + d)
  · obtain ⟨m, hm, hfits, -⟩ := Counter.apply_add_eq_ok_iff.1 hslot'
    obtain ⟨k, hk, rfl⟩ := h.number_of_value hm
    exact ⟨_, apply_add_eq_some_iff.2 ⟨k, hk, Counter.fits_natCast_iff.1 hfits, rfl⟩⟩

theorem Of.value_of_hashes (h : Of token n c slot) {S : Finset UInt64} (hS : c.hashes? = some S) :
    valueOr (.sketch .empty) slot = .sketch (.ofSet S) ∧ expiryOf slot = none := by
  cases h with
  | free => cases hS; exact ⟨congrArg Counter.Value.sketch Sketch.empty_eq_ofSet, rfl⟩
  | tally k => cases hS
  | crowd S => cases hS; exact ⟨rfl, rfl⟩
  | window t lapse hscores hdrawn => cases hS

theorem Of.hashes_of_value (h : Of token n c slot) {s : Sketch}
    (hs : valueOr (.sketch .empty) slot = .sketch s) : ∃ S, c.hashes? = some S := by
  cases h with
  | free => exact ⟨_, rfl⟩
  | tally k => cases hs
  | crowd S => exact ⟨_, rfl⟩
  | window t lapse hscores hdrawn => cases hs

theorem yields_observe (h : Of token n c slot) (key member : String) :
    Yields token n (c.apply now (.observe (Sketch.hashOf member)))
      ((Op.observe key member).apply now slot) := by
  refine .intro (fun c' hc' => ?_) fun slot' hslot' => ?_
  · obtain ⟨S, hS, rfl⟩ := apply_observe_eq_some_iff.1 hc'
    obtain ⟨hvalue, hexpiry⟩ := h.value_of_hashes hS
    refine ⟨_, Counter.apply_observe_eq_ok_iff.2 ⟨_, hvalue, rfl⟩, ?_⟩
    rw [hexpiry, Sketch.add, Sketch.addHash_ofSet]
    exact .crowd _
  · obtain ⟨s, hs, -⟩ := Counter.apply_observe_eq_ok_iff.1 hslot'
    obtain ⟨S, hS⟩ := h.hashes_of_value hs
    exact ⟨_, apply_observe_eq_some_iff.2 ⟨S, hS, rfl⟩⟩

theorem Of.value_of_scores (h : Of token n c slot) {scores : Multiset Int}
    (hscores : c.scores? = some scores) :
    ∃ t, valueOr (.scores .empty) slot = .scores t ∧
      (t.rows.map Prod.snd : Multiset Int) = scores ∧
      ∀ name ∈ t.keys, ∃ i k w, k < n ∧ name = memberName i (token k w) := by
  cases h with
  | free => cases hscores; exact ⟨.empty, rfl, rfl, fun name hname => absurd hname List.not_mem_nil⟩
  | tally k => cases hscores
  | crowd S => cases hscores
  | window t lapse heq hdrawn => cases hscores; exact ⟨t, rfl, heq, hdrawn⟩

theorem Of.scores_of_value (h : Of token n c slot) {t : Table String Int}
    (ht : valueOr (.scores .empty) slot = .scores t) : ∃ scores, c.scores? = some scores := by
  cases h with
  | free => exact ⟨_, rfl⟩
  | tally k => cases ht
  | crowd S => cases ht
  | window t lapse hscores hdrawn => exact ⟨_, rfl⟩

theorem yields_enter (hdistinct : ∀ i j w w', token i w = token j w' → i = j)
    (h : Of token n c slot) (u : String) (w : Window) :
    Yields token (n + 1) (c.apply now (.enter w))
      (applyAll now (enterWindow now (token n) u w) slot) := by
  refine .intro (fun c' hc' => ?_) fun slot' hslot' => ?_
  · obtain ⟨scores, hscores, rfl⟩ := apply_enter_eq_some_iff.1 hc'
    obtain ⟨t, ht, rfl, hdrawn⟩ := h.value_of_scores hscores
    obtain ⟨slot', hok⟩ := exists_slot_enterWindow ht now (token n) u w
    obtain ⟨t', ht', rfl⟩ := exists_scores_of_enterWindow hok
    obtain rfl : t = t' := Counter.Value.scores.inj (ht.symm.trans ht')
    -- The token is new, so the view gets a row of its own.
    have hnew : memberName now (token n w) ∉ t.keys := by
      intro hmem
      obtain ⟨i, k, w', hk, hname⟩ := hdrawn _ hmem
      exact hk.ne' (hdistinct _ _ _ _ (token_of_memberName hname))
    have hrows := rows_enter hnew now w
    refine ⟨_, hok, .window _ _ ?_ ?_⟩
    · rw [hrows, List.map_cons, ← Multiset.cons_coe, Multiset.filter_coe, List.filter_map]
      rfl
    · intro name hname
      rw [Table.keys, hrows, List.map_cons, List.mem_cons] at hname
      rcases hname with rfl | hname
      · exact ⟨now, n, w, Nat.lt_succ_self n, rfl⟩
      · obtain ⟨row, hrow, rfl⟩ := List.mem_map.1 hname
        obtain ⟨i, k, w', hk, hdrew⟩ := hdrawn row.1
          (List.mem_map_of_mem (List.mem_of_mem_filter hrow))
        exact ⟨i, k, w', Nat.lt_succ_of_lt hk, hdrew⟩
  · obtain ⟨t, ht, -⟩ := exists_scores_of_enterWindow hslot'
    obtain ⟨scores, hscores⟩ := h.scores_of_value ht
    exact ⟨_, apply_enter_eq_some_iff.2 ⟨scores, hscores, rfl⟩⟩

end Entries

end Content

open Content

/-! ### Batches -/

section Events
variable {token : Nat → Window → String} (hdistinct : ∀ i j w w', token i w = token j w' → i = j)
  {n : Nat} {now : Int}
include hdistinct

theorem yields_ops {c : Content} {slot : Option Entry} (h : Of token n c slot) {a : Account}
    {ev : Event} {ch : Change} (hch : a.change ev = some ch) :
    Yields token (n + 1) (c.apply now ch) (applyAll now (a.ops now (token n) ev) slot) := by
  have hmono := h.mono (Nat.le_succ n)
  rcases a with k | k | w
  · obtain ⟨d, hd, rfl⟩ := Option.map_eq_some_iff.1 hch
    rw [Account.ops, hd, Option.toList_some, List.map_singleton, Counter.applyAll_singleton]
    exact yields_add hmono _ d
  · obtain ⟨m, hm, rfl⟩ := Option.map_eq_some_iff.1 hch
    rw [Account.ops, hm, Option.toList_some, List.map_singleton, Counter.applyAll_singleton]
    exact yields_observe hmono _ m
  · cases ev <;> cases hch
    exact yields_enter hdistinct h _ w

/-- One event of a batch. -/
theorem yields_event {c : Option Content} {r : Except StoreError (Option Entry)}
    (h : Yields token n c r) (hlive : ∀ x, c = some x → x.live now = x) (key : String)
    (ev : Event) :
    Yields token (n + 1) (after now (changeAt key ev).toList c)
      (r.bind (applyAll now (opsOn key (opsOf now (token n) ev)))) := by
  cases h with
  | failed err =>
    rw [after_none]
    exact .failed err
  | @done c slot h =>
    have hstays : Yields token (n + 1) (some c) (.ok slot) := .done (h.mono (Nat.le_succ n))
    rcases exists_account_of_changeAt key ev with ⟨a, ha, -, hops⟩ | ⟨hnone, hops⟩
    · rw [ha, hops]
      cases hch : a.change ev with
      | none =>
        rw [ops_eq_nil_iff.2 hch]
        exact hstays
      | some ch =>
        rw [Option.toList_some, after_cons, after_nil, Option.bind_some, step, hlive c rfl]
        exact yields_ops hdistinct h hch
    · rw [hnone, hops]
      exact hstays

/-- **The events of a batch** do to an entry what their changes do to its content. -/
theorem yields_batch {c : Option Content} {r : Except StoreError (Option Entry)}
    (h : Yields token n c r) (hlive : ∀ x, c = some x → x.live now = x) (key : String)
    (events : List Event) :
    Yields token (n + events.length) (after now (changesAt key events) c)
      (r.bind (applyAll now (opsOn key (batchOps now token n events)))) := by
  induction events generalizing n c r with
  | nil =>
    cases h with
    | done h => exact .done h
    | failed err => exact .failed err
  | cons ev events ih =>
    have hrest := ih (yields_event hdistinct h hlive key ev) fun x hx => live_after hlive hx
    rw [changesAt_cons, after_append, batchOps_cons, Counter.opsOn_append, List.length_cons,
      Nat.add_comm events.length, ← Nat.add_assoc]
    cases r with
    | error err => exact hrest
    | ok slot =>
      change Yields token _ _ (applyAll now _ slot)
      rw [Counter.applyAll_append]
      exact hrest

end Events

/-! ### The store -/

/-- **The contents** of all entries. -/
def Contents (token : Nat → Window → String) (n : Nat) (m : Memory) (C : String → Content) : Prop :=
  ∀ key, Of token n (C key) (m.entries.find? key)

section Store
variable {token : Nat → Window → String} (hdistinct : ∀ i j w w', token i w = token j w' → i = j)
  {n : Nat} {now : Int} {m : Memory} {C : String → Content} (hC : Contents token n m C)
include hdistinct hC

/-- What the events of a batch do to the live entry under a key. -/
theorem yields_live (now : Int) (events : List Event) (key : String) :
    Yields token (n + events.length) (after now (changesAt key events) (some ((C key).live now)))
      (applyAll now (opsOn key (batchOps now token n events)) (m.live? now key)) :=
  yields_batch hdistinct (.done ((hC key).live now)) (fun _ hx => Option.some.inj hx ▸ live_live _)
    key events

/-- **A batch can be carried out** exactly if its changes under every key are possible. -/
theorem exec_ok_iff (events : List Event) :
    (Memory.exec ⟨now, batchOps now token n events⟩ m).1 = .ok () ↔
      ∀ key, ∃ c, after now (changesAt key events) (some (C key)) = some c := by
  refine Memory.exec_eq_ok_iff.trans (forall_congr' fun key => ?_)
  have hyields := yields_live hdistinct hC now events key
  by_cases hnil : changesAt key events = []
  · rw [hnil, opsOn_batchOps_eq_nil_iff.2 hnil]
    exact iff_of_true ⟨_, rfl⟩ ⟨_, rfl⟩
  · rw [after_live hnil] at hyields
    generalize after now (changesAt key events) (some (C key)) = c at hyields
    generalize applyAll now _ _ = r at hyields
    cases hyields with
    | done h => exact iff_of_true ⟨_, rfl⟩ ⟨_, rfl⟩
    | failed err => exact iff_of_false (by rintro ⟨_, h⟩; cases h) (by rintro ⟨_, h⟩; cases h)

/-- **A batch that is carried out** makes its changes. -/
theorem exists_contents_exec {events : List Event}
    (hok : (Memory.exec ⟨now, batchOps now token n events⟩ m).1 = .ok ()) :
    ∃ C', (∀ key, after now (changesAt key events) (some (C key)) = some (C' key)) ∧
      Contents token (n + events.length)
        (Memory.exec ⟨now, batchOps now token n events⟩ m).2 C' := by
  choose C' hC' using (exec_ok_iff hdistinct hC events).1 hok
  refine ⟨C', hC', fun key => ?_⟩
  by_cases hnil : changesAt key events = []
  · have hsame : C key = C' key := by
      rw [← Option.some_inj, ← hC' key, hnil, after_nil]
    have hnot : key ∉ (batchOps now token n events).map Op.key :=
      Counter.opsOn_eq_nil_iff.1 (opsOn_batchOps_eq_nil_iff.2 hnil)
    rw [Memory.find?_exec_of_not_mem _ m hnot, ← hsame]
    exact (hC key).mono (Nat.le_add_right n _)
  · have hmem : key ∈ (batchOps now token n events).map Op.key := by
      by_contra hnot
      exact hnil (opsOn_batchOps_eq_nil_iff.1 (Counter.opsOn_eq_nil_iff.2 hnot))
    have hyields := yields_live hdistinct hC now events key
    rw [Memory.find?_exec_of_mem hok hmem, after_live hnil, hC' key] at hyields
    cases hyields with
    | done h => exact h

end Store

end PaperIndex.Metrics
