import Mathlib.Data.Finset.Insert
import Mathlib.Data.Multiset.Filter
import PaperIndex.Proofs.Metrics.Accounts

/-! # What entries hold, up to the names of members

The members of a window have names that are drawn at random, and nothing that can be asked tells
one from another. So an entry amounts to its `Content`: a number, a set of hashes, or the scores
of the members with the instant when they expire.

An event makes at most one `Change` to the content under a key (`changeAt`), and a change may be
impossible (`Content.apply`). Two changes can be made in either order with the same outcome, unless
they are about different windows (`step_comm`), which have no key in common
(`eq_of_changeAt_enter`). So the order of the events does not matter (`after_changesAt_perm`). -/

namespace PaperIndex.Metrics

open Account
open Counter (opsOn)

/-- What an entry holds, up to the names of the members of a window. -/
inductive Content
  | free
  | tally (n : Nat)
  | crowd (S : Finset UInt64)
  | window (scores : Multiset Int) (lapse : Int)

/-- What an event changes under a key. -/
inductive Change
  | add (n : Nat)
  | observe (h : UInt64)
  | enter (w : Window)
deriving DecidableEq

/-- The change that an event makes to an account of its subject. -/
def Account.change : Account → Event → Option Change
  | .tally k, ev => (k.amount ev).map .add
  | .crowd k, ev => (k.member ev).map fun m => .observe (Sketch.hashOf m)
  | .window w, .view _ _ => some (.enter w)
  | .window _, _ => none

/-- **The change that an event makes under a key.** -/
def changeAt (key : String) (ev : Event) : Option Change :=
  (Account.all.find? fun a => a.key ev.subject = key).bind fun a => a.change ev

/-- The changes that events make under a key. -/
def changesAt (key : String) (events : List Event) : List Change :=
  events.filterMap (changeAt key)

namespace Content

/-- What is left of a content at an instant. -/
def live (now : Int) : Content → Content
  | .window scores lapse => if now < lapse then .window scores lapse else .free
  | c => c

/-- The number that a tally starts with or has. -/
def number? : Content → Option Nat
  | .free => some 0
  | .tally n => some n
  | _ => none

/-- The hashes that a crowd starts with or has. -/
def hashes? : Content → Option (Finset UInt64)
  | .free => some ∅
  | .crowd S => some S
  | _ => none

/-- The scores that a window starts with or has. -/
def scores? : Content → Option (Multiset Int)
  | .free => some 0
  | .window scores _ => some scores
  | _ => none

/-- One change of a live content, if it is possible. -/
def apply (now : Int) (c : Content) : Change → Option Content
  | .add d => c.number?.bind fun n => if n + d < Word.count 63 then some (.tally (n + d)) else none
  | .observe h => c.hashes?.map fun S => .crowd (insert h S)
  | .enter w =>
    c.scores?.map fun scores =>
      .window (now ::ₘ scores.filter (now - w.span < ·)) (now + w.span)

/-- One change, if it is possible. -/
def step (now : Int) (c : Content) (ch : Change) : Option Content := (c.live now).apply now ch

/-- Changes in turn, if all of them are possible. -/
def after (now : Int) (chs : List Change) (c : Option Content) : Option Content :=
  chs.foldl (fun c ch => c.bind fun c => c.step now ch) c

section After
variable {now : Int}

@[simp] theorem after_nil (c : Option Content) : after now [] c = c := rfl

theorem after_cons (ch : Change) (chs : List Change) (c : Option Content) :
    after now (ch :: chs) c = after now chs (c.bind fun c => c.step now ch) := rfl

theorem after_append (chs chs' : List Change) (c : Option Content) :
    after now (chs ++ chs') c = after now chs' (after now chs c) := List.foldl_append

theorem after_none (chs : List Change) : after now chs none = none := by
  induction chs with
  | nil => rfl
  | cons ch chs ih => exact ih

theorem apply_add_eq_some_iff {c c' : Content} {d : Nat} : c.apply now (.add d) = some c' ↔
    ∃ n, c.number? = some n ∧ n + d < Word.count 63 ∧ c' = .tally (n + d) := by
  rw [apply, Option.bind_eq_some_iff]
  refine exists_congr fun n => and_congr_right fun _ => ?_
  by_cases hlt : n + d < Word.count 63
  · rw [if_pos hlt, Option.some.injEq, eq_comm, and_iff_right hlt]
  · rw [if_neg hlt]
    exact iff_of_false (fun h => nomatch h) fun h => hlt h.1

theorem apply_observe_eq_some_iff {c c' : Content} {h : UInt64} :
    c.apply now (.observe h) = some c' ↔ ∃ S, c.hashes? = some S ∧ .crowd (insert h S) = c' :=
  Option.map_eq_some_iff

theorem apply_enter_eq_some_iff {c c' : Content} {w : Window} :
    c.apply now (.enter w) = some c' ↔ ∃ scores, c.scores? = some scores ∧
      .window (now ::ₘ scores.filter (now - w.span < ·)) (now + w.span) = c' :=
  Option.map_eq_some_iff

theorem live_apply {c c' : Content} {ch : Change} (h : c.apply now ch = some c') :
    c'.live now = c' := by
  cases ch with
  | add d =>
    obtain ⟨n, -, -, rfl⟩ := apply_add_eq_some_iff.1 h
    rfl
  | observe x =>
    obtain ⟨S, -, rfl⟩ := apply_observe_eq_some_iff.1 h
    rfl
  | enter w =>
    have hpos := w.span_pos
    obtain ⟨scores, -, rfl⟩ := apply_enter_eq_some_iff.1 h
    exact if_pos (by omega)

@[simp] theorem live_live (c : Content) : (c.live now).live now = c.live now := by
  cases c with
  | free => rfl
  | tally n => rfl
  | crowd S => rfl
  | window scores lapse =>
    by_cases hlt : now < lapse
    · rw [live, if_pos hlt, live, if_pos hlt]
    · rw [live, if_neg hlt]
      rfl

/-- The first change looks at what is left of a content. -/
theorem after_live {chs : List Change} (hne : chs ≠ []) (c : Content) :
    after now chs (some (c.live now)) = after now chs (some c) := by
  obtain ⟨ch, chs, rfl⟩ := List.exists_cons_of_ne_nil hne
  rw [after_cons, after_cons, Option.bind_some, Option.bind_some, step, step, live_live]

/-- After changes at an instant nothing has expired at it. -/
theorem live_after {chs : List Change} {c : Option Content} {c' : Content}
    (hlive : ∀ x, c = some x → x.live now = x) (h : after now chs c = some c') :
    c'.live now = c' := by
  induction chs generalizing c with
  | nil => exact hlive c' h
  | cons ch chs ih =>
    refine ih (fun x hx => ?_) h
    obtain ⟨y, -, hstep⟩ := Option.bind_eq_some_iff.1 hx
    exact live_apply hstep

/-! ### The order of changes -/

/-- Two changes that are possible in one order are so in the other one, with the same outcome. -/
theorem apply_swap {c c₁ c₂ : Content} {x y : Change}
    (hwindow : ∀ w w', x = .enter w → y = .enter w' → w = w') (hx : c.apply now x = some c₁)
    (hy : c₁.apply now y = some c₂) :
    ∃ c₃, c.apply now y = some c₃ ∧ c₃.apply now x = some c₂ := by
  cases x with
  | add d =>
    obtain ⟨n, hn, hlt, rfl⟩ := apply_add_eq_some_iff.1 hx
    cases y with
    | add d' =>
      obtain ⟨n', hn', hlt', rfl⟩ := apply_add_eq_some_iff.1 hy
      obtain rfl := Option.some.inj hn'
      refine ⟨_, apply_add_eq_some_iff.2 ⟨n, hn, by omega, rfl⟩, apply_add_eq_some_iff.2
        ⟨_, rfl, by omega, ?_⟩⟩
      rw [Nat.add_right_comm]
    | observe h => cases hy
    | enter w => cases hy
  | observe h =>
    obtain ⟨S, hS, rfl⟩ := apply_observe_eq_some_iff.1 hx
    cases y with
    | add d => cases hy
    | observe h' =>
      obtain ⟨S', hS', rfl⟩ := apply_observe_eq_some_iff.1 hy
      obtain rfl := Option.some.inj hS'
      refine ⟨_, apply_observe_eq_some_iff.2 ⟨S, hS, rfl⟩, apply_observe_eq_some_iff.2
        ⟨_, rfl, ?_⟩⟩
      rw [Finset.insert_comm]
    | enter w => cases hy
  | enter w =>
    cases y with
    | add d =>
      obtain ⟨scores, -, rfl⟩ := apply_enter_eq_some_iff.1 hx
      cases hy
    | observe h =>
      obtain ⟨scores, -, rfl⟩ := apply_enter_eq_some_iff.1 hx
      cases hy
    | enter w' =>
      obtain rfl := hwindow w w' rfl rfl
      exact ⟨c₁, hx, hy⟩

/-- **Two changes** have the same outcome in either order, unless they are about different
windows. -/
theorem step_comm (c : Content) {x y : Change}
    (hwindow : ∀ w w', x = .enter w → y = .enter w' → w = w') :
    ((c.step now x).bind fun c => c.step now y) = (c.step now y).bind fun c => c.step now x := by
  have hswap : ∀ {x y : Change}, (∀ w w', x = .enter w → y = .enter w' → w = w') → ∀ c₂,
      ((c.step now x).bind fun c => c.step now y) = some c₂ →
        ((c.step now y).bind fun c => c.step now x) = some c₂ := by
    intro x y hwindow c₂ h
    obtain ⟨c₁, hx, hy⟩ := Option.bind_eq_some_iff.1 h
    rw [step, live_apply hx] at hy
    obtain ⟨c₃, hy, hx⟩ := apply_swap hwindow hx hy
    refine Option.bind_eq_some_iff.2 ⟨c₃, hy, ?_⟩
    rwa [step, live_apply hy]
  refine Option.ext fun c₂ => ⟨hswap hwindow c₂, hswap (fun w w' hy hx => ?_) c₂⟩
  exact (hwindow w' w hx hy).symm

/-- **The order of changes** does not matter, unless they are about different windows. -/
theorem after_perm {chs chs' : List Change} (h : chs.Perm chs')
    (hwindow : ∀ w w', .enter w ∈ chs → .enter w' ∈ chs → w = w') (c : Option Content) :
    after now chs c = after now chs' c := by
  refine h.foldl_eq' (fun x hx y hy c => ?_) c
  rw [Option.bind_assoc, Option.bind_assoc]
  refine Option.bind_congr fun c _ => step_comm c ?_
  rintro w w' rfl rfl
  exact hwindow w w' hx hy

end After

end Content

/-! ### The changes of events -/

theorem ops_eq_nil_iff {a : Account} {ev : Event} {now : Int} {tok : Window → String} :
    a.ops now tok ev = [] ↔ a.change ev = none := by
  rcases a with k | k | w
  · simp [Account.ops, Account.change]
  · simp [Account.ops, Account.change]
  · cases ev <;> simp [Account.ops, Account.change, enterWindow]

/-- The operations of an event under a key are those on one account of its subject, if one has the
key. -/
theorem exists_account_of_changeAt (key : String) (ev : Event) :
    (∃ a : Account, changeAt key ev = a.change ev ∧ a.key ev.subject = key ∧
      ∀ now tok, opsOn key (opsOf now tok ev) = a.ops now tok ev) ∨
    (changeAt key ev = none ∧ ∀ now tok, opsOn key (opsOf now tok ev) = []) := by
  unfold changeAt
  cases hfind : Account.all.find? fun a => a.key ev.subject = key with
  | none =>
    refine .inr ⟨rfl, fun now tok => opsOn_opsOf_of_ne now tok fun a hkey => ?_⟩
    exact List.find?_eq_none.1 hfind a (mem_all a) (decide_eq_true hkey)
  | some a =>
    have hkey : a.key ev.subject = key := by simpa using List.find?_some hfind
    refine .inl ⟨a, rfl, hkey, fun now tok => opsOn_opsOf_of_key now tok ev fun b => ?_⟩
    rw [← hkey]
    exact key_inj

theorem changesAt_cons (key : String) (ev : Event) (events : List Event) :
    changesAt key (ev :: events) = (changeAt key ev).toList ++ changesAt key events := by
  unfold changesAt
  rw [List.filterMap_cons]
  cases changeAt key ev <;> rfl

/-- Events that make no change under a key have no operation on it. -/
theorem opsOn_batchOps_eq_nil_iff {key : String} {now : Int} {token : Nat → Window → String}
    {n : Nat} {events : List Event} :
    opsOn key (batchOps now token n events) = [] ↔ changesAt key events = [] := by
  induction events generalizing n with
  | nil => exact iff_of_true rfl rfl
  | cons ev events ih =>
    rw [batchOps_cons, Counter.opsOn_append, changesAt_cons, List.append_eq_nil_iff,
      List.append_eq_nil_iff, ih, Option.toList_eq_nil_iff]
    refine and_congr_left fun _ => ?_
    rcases exists_account_of_changeAt key ev with ⟨a, ha, -, hops⟩ | ⟨hnone, hops⟩
    · rw [ha, hops, ops_eq_nil_iff]
    · rw [hops]
      exact iff_of_true rfl hnone

/-- The changes under one key are about one window. -/
theorem eq_of_changeAt_enter {key : String} {ev ev' : Event} {w w' : Window}
    (h : changeAt key ev = some (.enter w)) (h' : changeAt key ev' = some (.enter w')) :
    w = w' := by
  have hkey : ∀ {ev w}, changeAt key ev = some (.enter w) →
      (Account.window w).key ev.subject = key := by
    intro ev w h
    rcases exists_account_of_changeAt key ev with ⟨a, ha, hkey, -⟩ | ⟨hnone, -⟩
    · rw [ha] at h
      rcases a with k | k | w₁
      · simp [Account.change] at h
      · simp [Account.change] at h
      · cases ev <;> cases h
        exact hkey
    · rw [hnone] at h
      cases h
  have hsame := (hkey h).trans (hkey h').symm
  rcases key_eq_key_iff.1 hsame with ⟨heq, -⟩ | ⟨rest, hx, -⟩ | ⟨rest, hx, -⟩
  · exact Account.window.inj heq
  · cases hx
  · cases hx

/-- **The order of events** does not matter for the content under a key. -/
theorem after_changesAt_perm {events events' : List Event} (h : events.Perm events') (now : Int)
    (key : String) (c : Option Content) :
    Content.after now (changesAt key events) c = Content.after now (changesAt key events') c := by
  refine Content.after_perm (h.filterMap _) (fun w w' hw hw' => ?_) c
  obtain ⟨ev, -, hev⟩ := List.mem_filterMap.1 hw
  obtain ⟨ev', -, hev'⟩ := List.mem_filterMap.1 hw'
  exact eq_of_changeAt_enter hev hev'

end PaperIndex.Metrics
