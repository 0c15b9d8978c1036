import PaperIndex.Counter.Relational
import PaperIndex.Proofs.Metrics.Accounts

/-! # Summaries from the accounts

A summary succeeds exactly when the question about every account of its subject has an
answer, and is made of these answers (`summary_eq_ok_iff`); so it depends on the entries under the
keys of its subject alone (`summary_congr`). -/

namespace PaperIndex.Metrics

open Counter (Memory Relational Query Entry)

/-- The summary of a subject made of the answers about its accounts. -/
def Summary.ofAnswers (uri : String) (n : Account → Nat) : Summary where
  uri
  totalViews := n (.tally .views)
  uniqueViews := n (.crowd .viewers)
  totalDownloads := n (.tally .downloads)
  uniqueDownloads := n (.crowd .downloaders)
  viewsOfDay := n (.window .day)
  viewsOfWeek := n (.window .week)
  viewsOfMonth := n (.window .month)
  searchClicks := n (.tally .searchClicks)
  searchDownloads := n (.tally .searchDownloads)
  dwellSamples := n (.tally .dwellCount)
  averageDwell :=
    if n (.tally .dwellCount) = 0 then none
    else some (n (.tally .dwellTotal) / n (.tally .dwellCount))

/-- The counts of the accounts, from those of the tallies, the crowds and the windows. -/
def Account.count (tally : Tally → Nat) (crowd : Crowd → Nat) (window : Window → Nat) :
    Account → Nat
  | .tally k => tally k
  | .crowd k => crowd k
  | .window w => window w

/-- A summary from a store that answers all questions. -/
theorem summary_of_read {σ ς : Type} {e : Engine σ ς} {now : Int} {uri : String} {counters : σ}
    {n : Account → Int}
    (h : e.counters.read (summaryQueries now uri) now counters = .ok (Account.all.map n)) :
    e.summary now uri counters = .ok (.ofAnswers uri fun a => (n a).toNat) := by
  unfold Engine.summary
  simp only [h]
  rfl

/-- **The counters answer question by question**: a read fails if one of its questions has no
answer. -/
def Engine.AnswersBy {σ ς : Type} (e : Engine σ ς)
    (answer : σ → Int → Query → Except StoreError Int) : Prop :=
  ∀ qs now st, e.counters.read qs now st = qs.mapM (answer st now)

theorem answersBy_memory {ς : Type} {e : Engine Memory ς} (he : e.counters = Memory.store) :
    e.AnswersBy Memory.answer := fun _ _ _ => by rw [he]; rfl

theorem answersBy_relational {ς : Type} {e : Engine Relational ς}
    (he : e.counters = Relational.store) : e.AnswersBy Relational.answer :=
  fun _ _ _ => by rw [he]; rfl

section Store
variable {σ ς : Type} {e : Engine σ ς} {answer : σ → Int → Query → Except StoreError Int}
  (ha : e.AnswersBy answer) {now : Int} {uri : String} {st : σ}
include ha

theorem summary_of_answers {n : Account → Int}
    (h : ∀ a : Account, answer st now (a.query now uri) = .ok (n a)) :
    e.summary now uri st = .ok (.ofAnswers uri fun a => (n a).toNat) := by
  refine summary_of_read ((ha _ _ _).trans ?_)
  rw [Account.summaryQueries_eq, mapM_eq_ok_iff, List.forall₂_map_left_iff,
    List.forall₂_map_right_iff, List.forall₂_same]
  exact fun a _ => h a

theorem summary_of_counts {tally : Tally → Nat} {crowd : Crowd → Int} {window : Window → Nat}
    (htally : ∀ k, answer st now ((Account.tally k).query now uri) = .ok (tally k))
    (hcrowd : ∀ k, answer st now ((Account.crowd k).query now uri) = .ok (crowd k))
    (hwindow : ∀ w, answer st now ((Account.window w).query now uri) = .ok (window w)) :
    e.summary now uri st =
      .ok (.ofAnswers uri (Account.count tally (fun k => (crowd k).toNat) window)) := by
  have hall : ∀ a : Account, ∃ n, answer st now (a.query now uri) = .ok n ∧
      n.toNat = Account.count tally (fun k => (crowd k).toNat) window a := by
    rintro (k | k | w)
    · exact ⟨_, htally k, rfl⟩
    · exact ⟨_, hcrowd k, rfl⟩
    · exact ⟨_, hwindow w, rfl⟩
  choose n hn hcount using hall
  rw [summary_of_answers ha hn, funext hcount]

/-- **A summary** is made of the answers about the accounts of its subject, and there is one only if
all of them have an answer. -/
theorem summary_eq_ok_iff {s : Summary} :
    e.summary now uri st = .ok s ↔ ∃ n : Account → Int,
      (∀ a : Account, answer st now (a.query now uri) = .ok (n a)) ∧
        s = .ofAnswers uri fun a => (n a).toNat := by
  constructor
  · intro h
    cases hread : e.counters.read (summaryQueries now uri) now st with
    | error cause =>
      unfold Engine.summary at h
      simp only [hread] at h
      cases h
    | ok ns =>
      rw [ha] at hread
      have hall : ∀ a : Account, ∃ n, answer st now (a.query now uri) = .ok n := fun a =>
        exists_mapM_iff.1 ⟨ns, hread⟩ _ (List.mem_map_of_mem (Account.mem_all a))
      choose n hn using hall
      rw [summary_of_answers ha hn] at h
      exact ⟨n, hn, (Except.ok.inj h).symm⟩
  · rintro ⟨n, hn, rfl⟩
    exact summary_of_answers ha hn

end Store

section Memory
variable {ς : Type} {e : Engine Memory ς} (he : e.counters = Memory.store)
include he

theorem viewCount_of_answer {now : Int} {uri : String} {m : Memory} {n : Int}
    (h : m.answer now ((Account.tally .views).query now uri) = .ok n) :
    e.viewCount now uri m = .ok n.toNat := by
  have hread : e.counters.read [.tally (Keys.views uri)] now m = .ok [n] := by
    rw [he]
    exact Memory.read_eq_ok_iff.2 (.cons h .nil)
  unfold Engine.viewCount
  rw [hread]
  rfl

theorem summary_congr {now : Int} {uri : String} {m m' : Memory}
    (h : ∀ a : Account, m'.entries.find? (a.key uri) = m.entries.find? (a.key uri)) :
    e.summary now uri m' = e.summary now uri m := by
  have hread : e.counters.read (summaryQueries now uri) now m' =
      e.counters.read (summaryQueries now uri) now m := by
    rw [he]
    refine Memory.read_congr fun q hq => ?_
    rw [Account.summaryQueries_eq] at hq
    obtain ⟨a, -, rfl⟩ := List.mem_map.1 hq
    rw [Account.key_query]
    exact h a
  unfold Engine.summary
  simp only [hread]

end Memory

end PaperIndex.Metrics
