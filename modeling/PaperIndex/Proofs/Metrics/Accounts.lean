import Mathlib.Data.List.Nodup
import PaperIndex.Metrics.Engine
import PaperIndex.Proofs.Counter.Slots
import PaperIndex.Record.Uri

/-! # The accounts of a subject

What is counted about a subject is kept in eleven accounts: six tallies, two crowds of actors, and
three windows of views. Every account has a key for each subject, its lead followed by the subject.

* `key_eq_key_iff`: the keys of two accounts are equal only for the same account and subject, or
  where one lead extends the other one (`extra?`) and a subject starts with the rest;
* `opsOf_eq`, `summaryQueries_eq`: an event changes the accounts of its subject, and a summary asks
  for the accounts of its subject, each account in turn;
* `opsOn_batchOps`: the changes that a batch makes under the key of an account of a subject. -/

namespace PaperIndex.Metrics

open Counter (Op Query opsOn)

/-- The tallies of a subject. -/
inductive Tally
  | views
  | downloads
  | searchClicks
  | searchDownloads
  | dwellTotal
  | dwellCount
deriving DecidableEq, Repr

/-- The crowds of a subject. -/
inductive Crowd
  | viewers
  | downloaders
deriving DecidableEq, Repr

/-- The accounts of a subject. -/
inductive Account
  | tally (k : Tally)
  | crowd (k : Crowd)
  | window (w : Window)
deriving DecidableEq, Repr

/-- What an event adds to a tally of its subject. -/
def Tally.amount : Tally → Event → Option Nat
  | .views, .view _ _ => some 1
  | .downloads, .download _ _ => some 1
  | .searchClicks, .searchClick _ => some 1
  | .searchDownloads, .searchDownload _ => some 1
  | .dwellTotal, .dwell _ millis => some millis
  | .dwellCount, .dwell _ _ => some 1
  | _, _ => none

/-- The member that an event adds to a crowd of its subject. -/
def Crowd.member : Crowd → Event → Option String
  | .viewers, .view _ actor => actor
  | .downloaders, .download _ actor => actor
  | _, _ => none

namespace Account

/-- All accounts, as a summary asks for them. -/
def all : List Account :=
  [.tally .views, .crowd .viewers, .tally .downloads, .crowd .downloaders, .tally .searchClicks,
   .tally .searchDownloads, .tally .dwellTotal, .tally .dwellCount, .window .day, .window .week,
   .window .month]

theorem mem_all (a : Account) : a ∈ all := by
  rcases a with k | k | w
  · cases k <;> decide
  · cases k <;> decide
  · cases w <;> decide

theorem nodup_all : all.Nodup := by decide

/-- The lead of the keys of an account. -/
def lead : Account → String
  | .tally .views => "views:"
  | .tally .downloads => "downloads:"
  | .tally .searchClicks => "search:clicks:"
  | .tally .searchDownloads => "search:downloads:"
  | .tally .dwellTotal => "dwell:total:"
  | .tally .dwellCount => "dwell:count:"
  | .crowd .viewers => "unique:"
  | .crowd .downloaders => "unique:downloads:"
  | .window w => Keys.windowLead w

/-- The key of an account of a subject. -/
def key (a : Account) (uri : String) : String := a.lead ++ uri

/-- What the lead of an account has beyond the lead of another one, if it extends it. -/
def extra? : Account → Account → Option String
  | .tally .views, .window w => some (w.label ++ ":")
  | .crowd .viewers, .crowd .downloaders => some "downloads:"
  | _, _ => none

/-- The changes that an event makes to an account of its subject. -/
def ops (now : Int) (token : Window → String) : Account → Event → List Op
  | .tally k, ev =>
    (k.amount ev).toList.map fun n : Nat => .add ((Account.tally k).key ev.subject) n
  | .crowd k, ev => (k.member ev).toList.map fun m => .observe ((Account.crowd k).key ev.subject) m
  | .window w, .view uri _ => enterWindow now token uri w
  | .window _, _ => []

/-- The question about an account. -/
def query (now : Int) (uri : String) : Account → Query
  | .tally k => .tally ((Account.tally k).key uri)
  | .crowd k => .count ((Account.crowd k).key uri)
  | .window w => windowQuery now uri w

/-! ### Keys -/

theorem after?_lead (a b : Account) :
    Text.after? a.lead b.lead = if a = b then some "" else extra? a b := by
  have h : ∀ a ∈ all, ∀ b ∈ all,
      Text.after? a.lead b.lead = if a = b then some "" else extra? a b := by decide +kernel
  exact h a (mem_all a) b (mem_all b)

/-- **Two keys are equal** only for the same account and subject, or where a subject starts with
what the lead of one account has beyond the other one. -/
theorem key_eq_key_iff {a b : Account} {u v : String} :
    a.key u = b.key v ↔ (a = b ∧ u = v) ∨ (∃ rest, extra? a b = some rest ∧ u = rest ++ v) ∨
      ∃ rest, extra? b a = some rest ∧ v = rest ++ u := by
  have hlead : ∀ (a b : Account) (c : String), b.lead = a.lead ++ c ↔
      (if a = b then some "" else extra? a b) = some c := fun a b c => by
    rw [← after?_lead, Text.after?_eq_some_iff]
  rw [key, key, Text.append_eq_append_iff]
  simp only [hlead]
  by_cases hab : a = b
  · subst hab
    have hextra : extra? a a = none := by
      rcases a with k | k | w
      · cases k <;> rfl
      · cases k <;> rfl
      · rfl
    simp [hextra, eq_comm]
  · simp [hab, Ne.symm hab]

/-! ### Events -/

theorem opsOf_eq (now : Int) (token : Window → String) (ev : Event) :
    opsOf now token ev = all.flatMap fun a => a.ops now token ev := by
  cases ev with
  | view uri actor => cases actor <;> rfl
  | download uri actor => cases actor <;> rfl
  | dwell uri millis => rfl
  | searchClick uri => rfl
  | searchDownload uri => rfl

theorem summaryQueries_eq (now : Int) (uri : String) :
    summaryQueries now uri = all.map (query now uri) := rfl

theorem key_query (now : Int) (uri : String) (a : Account) : (query now uri a).key = a.key uri := by
  cases a <;> rfl

/-- An event changes an account under its key only. -/
theorem key_of_mem_ops {now : Int} {token : Window → String} {a : Account} {ev : Event} {op : Op}
    (h : op ∈ a.ops now token ev) : op.key = a.key ev.subject := by
  rcases a with k | k | w
  · obtain ⟨n, -, rfl⟩ := List.mem_map.1 h
    rfl
  · obtain ⟨m, -, rfl⟩ := List.mem_map.1 h
    rfl
  · cases ev with
    | view uri actor =>
      simp only [ops, enterWindow, List.mem_cons, List.not_mem_nil, or_false] at h
      rcases h with rfl | rfl | rfl <;> rfl
    | download uri actor => cases h
    | dwell uri millis => cases h
    | searchClick uri => cases h
    | searchDownload uri => cases h

end Account

open Account

/-! ### Subjects with a common key -/

/-- A text is another one behind the label of a window, or behind the lead of downloads. -/
def Extends (u v : String) : Prop := (∃ w : Window, u = w.label ++ ":" ++ v) ∨ u = "downloads:" ++ v

/-- **Two subjects are entangled** if one of them extends the other one. -/
def Entangled (u v : String) : Prop := Extends u v ∨ Extends v u

theorem extra?_eq_some_iff {a b : Account} {rest : String} :
    extra? a b = some rest ↔
      (∃ w, a = .tally .views ∧ b = .window w ∧ rest = w.label ++ ":") ∨
        (a = .crowd .viewers ∧ b = .crowd .downloaders ∧ rest = "downloads:") := by
  constructor
  · intro h
    unfold extra? at h
    split at h
    · exact .inl ⟨_, rfl, rfl, (Option.some.inj h).symm⟩
    · exact .inr ⟨rfl, rfl, (Option.some.inj h).symm⟩
    · cases h
  · rintro (⟨w, rfl, rfl, rfl⟩ | ⟨rfl, rfl, rfl⟩) <;> rfl

theorem extends_iff {u v : String} :
    Extends u v ↔ ∃ a b rest, extra? a b = some rest ∧ u = rest ++ v := by
  simp only [extra?_eq_some_iff]
  constructor
  · rintro (⟨w, rfl⟩ | rfl)
    · exact ⟨_, _, _, .inl ⟨w, rfl, rfl, rfl⟩, rfl⟩
    · exact ⟨_, _, _, .inr ⟨rfl, rfl, rfl⟩, rfl⟩
  · rintro ⟨a, b, rest, ⟨w, -, -, rfl⟩ | ⟨-, -, rfl⟩, rfl⟩
    · exact .inl ⟨w, rfl⟩
    · exact .inr rfl

/-- **Subjects that are not entangled** have no key in common. -/
theorem key_eq_key_iff_of_not_entangled {a b : Account} {u v : String} (h : ¬Entangled u v) :
    a.key u = b.key v ↔ a = b ∧ u = v := by
  rw [key_eq_key_iff]
  refine or_iff_left fun hc => h ?_
  rcases hc with ⟨rest, hx, hu⟩ | ⟨rest, hx, hv⟩
  · exact .inl (extends_iff.2 ⟨a, b, rest, hx, hu⟩)
  · exact .inr (extends_iff.2 ⟨b, a, rest, hx, hv⟩)

theorem not_entangled_self (u : String) : ¬Entangled u u := by
  have hself : ¬Extends u u := by
    rintro (⟨w, h⟩ | h)
    · have := congrArg String.length h
      cases w <;> simp [Window.label] at this
    · have := congrArg String.length h
      simp at this
  rintro (h | h)
  · exact hself h
  · exact hself h

/-- The accounts of one subject have different keys. -/
theorem key_inj {a b : Account} {u : String} : a.key u = b.key u ↔ a = b :=
  (key_eq_key_iff_of_not_entangled (not_entangled_self u)).trans (and_iff_left rfl)

/-- A URI that is accepted as the name of a record. -/
def IsRecord (uri : String) : Prop := ∃ r, RecordUri.parse uri = .ok r

theorem isRecord_render {r : RecordUri} (h : r.Valid) : IsRecord r.render :=
  ⟨r, RecordUri.parse_render h⟩

theorem not_blank_of_isRecord {uri : String} (h : IsRecord uri) :
    Text.isBlankText uri = false :=
  h.elim fun _ hr => RecordUri.not_blank_of_parse hr

theorem not_extends_of_isRecord {u : String} (h : IsRecord u) (v : String) : ¬Extends u v := by
  obtain ⟨r, hr⟩ := h
  obtain ⟨cs, hcs⟩ := RecordUri.exists_toList_of_parse hr
  rintro (⟨w, rfl⟩ | rfl)
  · cases w <;> simp [Window.label] at hcs
  · simp at hcs

theorem not_entangled_of_isRecord {u v : String} (hu : IsRecord u) (hv : IsRecord v) :
    ¬Entangled u v := by
  rintro (h | h)
  · exact not_extends_of_isRecord hu v h
  · exact not_extends_of_isRecord hv u h

/-! ### Batches -/

theorem opsOn_opsOf_of_ne (now : Int) (token : Window → String) {ev : Event} {key : String}
    (h : ∀ a : Account, a.key ev.subject ≠ key) : opsOn key (opsOf now token ev) = [] := by
  rw [Counter.opsOn_eq_nil_iff, opsOf_eq]
  intro hmem
  obtain ⟨op, hop, rfl⟩ := List.mem_map.1 hmem
  obtain ⟨a, -, hop⟩ := List.mem_flatMap.1 hop
  exact h a (key_of_mem_ops hop).symm

/-- The changes of an event under a key that one account of its subject has. -/
theorem opsOn_opsOf_of_key (now : Int) (token : Window → String) (ev : Event) {a : Account}
    {key : String} (h : ∀ b : Account, b.key ev.subject = key ↔ b = a) :
    opsOn key (opsOf now token ev) = a.ops now token ev := by
  have hself : opsOn key (a.ops now token ev) = a.ops now token ev :=
    List.filter_eq_self.2 fun op hop => decide_eq_true ((key_of_mem_ops hop).trans ((h a).2 rfl))
  have hnone : ∀ l : List Account, a ∉ l →
      l.flatMap (fun b => opsOn key (b.ops now token ev)) = [] := fun l hl => by
    refine List.flatMap_eq_nil_iff.2 fun b hb => List.filter_eq_nil_iff.2 fun op hop hkey => hl ?_
    rw [decide_eq_true_eq, key_of_mem_ops hop] at hkey
    exact (h b).1 hkey ▸ hb
  have hfilter : opsOn key (all.flatMap fun b => b.ops now token ev) =
      all.flatMap fun b => opsOn key (b.ops now token ev) := List.filter_flatMap ..
  obtain ⟨l, l', hall⟩ := List.append_of_mem (mem_all a)
  have hnodup := nodup_all
  rw [hall, List.nodup_middle, List.nodup_cons, List.mem_append, not_or] at hnodup
  rw [opsOf_eq, hfilter, hall, List.flatMap_append, List.flatMap_cons, hnone l hnodup.1.1,
    hnone l' hnodup.1.2, hself, List.nil_append, List.append_nil]

/-- The changes of an event under the key of an account of a subject that is not entangled with the
subject of the event. -/
theorem opsOn_opsOf (now : Int) (token : Window → String) (a : Account) {ev : Event} {u : String}
    (h : ¬Entangled ev.subject u) :
    opsOn (a.key u) (opsOf now token ev) = if ev.subject = u then a.ops now token ev else [] := by
  by_cases hs : ev.subject = u
  · rw [if_pos hs]
    exact opsOn_opsOf_of_key now token ev fun b =>
      (key_eq_key_iff_of_not_entangled h).trans (and_iff_left hs)
  · rw [if_neg hs]
    exact opsOn_opsOf_of_ne now token fun b hb => hs ((key_eq_key_iff_of_not_entangled h).1 hb).2

theorem batchOps_cons (now : Int) (token : Nat → Window → String) (fresh : Nat) (ev : Event)
    (events : List Event) :
    batchOps now token fresh (ev :: events) =
      opsOf now (token fresh) ev ++ batchOps now token (fresh + 1) events := by
  unfold batchOps
  rw [List.zipIdx_cons, List.flatMap_cons]

theorem batchOps_ne_nil {now : Int} {token : Nat → Window → String} {fresh : Nat}
    {events : List Event} (h : events ≠ []) : batchOps now token fresh events ≠ [] := by
  obtain ⟨ev, rest, rfl⟩ := List.exists_cons_of_ne_nil h
  rw [batchOps_cons]
  refine List.append_ne_nil_of_left_ne_nil ?_ _
  cases ev <;> exact List.cons_ne_nil _ _

/-- A batch changes accounts of its subjects only. -/
theorem key_of_mem_batchOps {now : Int} {token : Nat → Window → String} {fresh : Nat}
    {events : List Event} {op : Op} (h : op ∈ batchOps now token fresh events) :
    ∃ (a : Account) (ev : Event), ev ∈ events ∧ op.key = a.key ev.subject := by
  obtain ⟨⟨ev, n⟩, hmem, hop⟩ := List.mem_flatMap.1 h
  rw [opsOf_eq] at hop
  obtain ⟨a, -, hop⟩ := List.mem_flatMap.1 hop
  exact ⟨a, ev, List.fst_mem_of_mem_zipIdx hmem, key_of_mem_ops hop⟩

end PaperIndex.Metrics
