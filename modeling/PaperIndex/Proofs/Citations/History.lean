import Mathlib.Data.List.Induction
import Mathlib.Logic.Function.Basic
import PaperIndex.Proofs.Citations.Session
import PaperIndex.Proofs.Graph.Edges

/-! # Citations and the history of their submission

A citation of the graph is what its submissions since its last removal have made of it. The account
of a session (`account`) notes which URIs are papers and, for any two ends, the accepted citations
between them since the last removal at one of the ends. The graph in memory follows the account
(`follows_run`), so the first acceptance gives the instant of the discovery and the last one the
other attributes. `edges_of_history` says this together with the outcomes of the batches. -/

namespace PaperIndex.Citations

open Time (Instant)
open Function (update)
open PaperIndex.Graph (Attributes Memory)

/-! ### Accounts -/

/-- A citation that has been accepted, and the instant of its batch. -/
structure Acceptance where
  instant : Instant
  citation : Citation
deriving DecidableEq, Repr

/-- What is known of the papers and of the citations between any two ends. -/
structure Account where
  papers : String → Bool
  /-- The citations from one URI to another one that were accepted since the last removal, in the
  order of their submission. -/
  accepted : String → String → List Acceptance

/-- Whether a citation leads from `a` to `b`. -/
def joins (a b : String) (c : Citation) : Bool := c.citing == a && c.cited == b

/-- Whether a citation is accepted: it names two different URIs, and both are papers. -/
def accepts (papers : String → Bool) (c : Citation) : Bool :=
  isSubmittable c && (papers c.citing && papers c.cited)

namespace Request

/-- Whether a request removes the citation from `a` to `b`. -/
def removes (a b : String) : Request → Bool
  | .remove uri => a == uri || b == uri
  | .deleteFor uri => a == uri || b == uri
  | _ => false

/-- The citations that a request submits. -/
def submitted : Request → List Citation
  | .submit cs => cs
  | _ => []

/-- The papers after a request. -/
def papersAfter (papers : String → Bool) : Request → String → Bool
  | .register uri => if Text.isBlankText uri then papers else update papers uri true
  | .remove uri => update papers uri false
  | _ => papers

end Request

namespace Account

/-- Nothing is known yet. -/
def start : Account := ⟨fun _ => false, fun _ _ => []⟩

/-- The citations from `a` to `b` that are accepted when they are submitted. -/
def acceptances (k : Account) (a b : String) (now : Instant) (cs : List Citation) :
    List Acceptance :=
  ((cs.filter (accepts k.papers)).filter (joins a b)).map (⟨now, ·⟩)

/-- The account after a request. -/
def after (k : Account) (call : Instant × Request) : Account where
  papers := call.2.papersAfter k.papers
  accepted a b :=
    if call.2.removes a b then []
    else k.accepted a b ++ k.acceptances a b call.1 call.2.submitted

theorem accepted_after (k : Account) (call : Instant × Request) (a b : String) :
    (k.after call).accepted a b =
      if call.2.removes a b then []
      else k.accepted a b ++ k.acceptances a b call.1 call.2.submitted := rfl

end Account

/-- **The account of a session.** -/
def account (session : Session) : Account := session.foldl Account.after .start

theorem account_snoc (session : Session) (call : Instant × Request) :
    account (session ++ [call]) = (account session).after call := List.foldl_append

/-- What the acceptances of a citation make of its attributes. -/
def attributesOf (xs : List Acceptance) : Option Attributes :=
  xs.head?.bind fun first => xs.getLast?.map fun last =>
    ⟨last.citation.isInfluential, last.citation.source, first.instant⟩

theorem attributesOf_snoc (xs : List Acceptance) (now : Instant) (c : Citation) :
    attributesOf (xs ++ [⟨now, c⟩]) = some (Attributes.merged now c (attributesOf xs)) := by
  unfold attributesOf
  rw [List.getLast?_concat]
  cases xs with
  | nil => rfl
  | cons first xs =>
    rw [List.getLast?_cons]
    rfl

theorem isSome_attributesOf_iff {xs : List Acceptance} :
    (attributesOf xs).isSome = true ↔ ∃ x, x ∈ xs := by
  cases xs with
  | nil => simp [attributesOf]
  | cons first xs => simp [attributesOf, List.getLast?_cons]

/-! ### Since the last removal -/

/-- A citation from `a` to `b` was accepted, and neither end has been removed or had its citations
deleted since then. -/
def AcceptedSince (a b : String) (session : Session) (x : Acceptance) : Prop :=
  ∃ before q after, session = before ++ (x.instant, q) :: after ∧ x.citation ∈ q.submitted ∧
    joins a b x.citation = true ∧ accepts (account before).papers x.citation = true ∧
    ∀ call ∈ after, call.2.removes a b = false

theorem mem_acceptances {k : Account} {a b : String} {now : Instant} {cs : List Citation}
    {x : Acceptance} : x ∈ k.acceptances a b now cs ↔
      x.instant = now ∧ x.citation ∈ cs ∧ joins a b x.citation = true ∧
        accepts k.papers x.citation = true := by
  unfold Account.acceptances
  rw [List.mem_map]
  constructor
  · rintro ⟨c, hc, rfl⟩
    obtain ⟨hc, hjoins⟩ := List.mem_filter.1 hc
    obtain ⟨hmem, haccepts⟩ := List.mem_filter.1 hc
    exact ⟨rfl, hmem, hjoins, haccepts⟩
  · rintro ⟨rfl, hmem, hjoins, haccepts⟩
    exact ⟨x.citation, List.mem_filter.2 ⟨List.mem_filter.2 ⟨hmem, haccepts⟩, hjoins⟩, rfl⟩

/-- The ways to split a list that has one more item at its end. -/
theorem concat_eq_append_cons_iff {α : Type} {xs : List α} {x : α} {before after : List α} {y : α} :
    xs ++ [x] = before ++ y :: after ↔
      (before = xs ∧ y = x ∧ after = []) ∨
        ∃ after', after = after' ++ [x] ∧ xs = before ++ y :: after' := by
  constructor
  · intro h
    induction after using List.reverseRecOn with
    | nil =>
      obtain ⟨hxs, hx⟩ := List.append_inj' h rfl
      exact .inl ⟨hxs.symm, (List.cons.inj hx).1.symm, rfl⟩
    | append_singleton after z _ =>
      rw [← List.cons_append, ← List.append_assoc] at h
      obtain ⟨hxs, hx⟩ := List.append_inj' h rfl
      exact .inr ⟨after, by rw [(List.cons.inj hx).1], hxs⟩
  · rintro (⟨rfl, rfl, rfl⟩ | ⟨after', rfl, rfl⟩)
    · rfl
    · rw [List.append_assoc, List.cons_append]

theorem acceptedSince_snoc {a b : String} {session : Session} {call : Instant × Request}
    {x : Acceptance} : AcceptedSince a b (session ++ [call]) x ↔
      (call.2.removes a b = false ∧ AcceptedSince a b session x) ∨
        x ∈ (account session).acceptances a b call.1 call.2.submitted := by
  rw [mem_acceptances]
  constructor
  · rintro ⟨before, q, after, hsplit, hmem, hjoins, haccepts, hkept⟩
    rcases concat_eq_append_cons_iff.1 hsplit with ⟨rfl, rfl, rfl⟩ | ⟨after', rfl, hsplit'⟩
    · exact .inr ⟨rfl, hmem, hjoins, haccepts⟩
    · rw [List.forall_mem_append, List.forall_mem_singleton] at hkept
      exact .inl ⟨hkept.2, before, q, after', hsplit', hmem, hjoins, haccepts, hkept.1⟩
  · rintro (⟨hcall, before, q, after, rfl, hmem, hjoins, haccepts, hkept⟩ |
      ⟨hinstant, hmem, hjoins, haccepts⟩)
    · refine ⟨before, q, after ++ [call], by simp, hmem, hjoins, haccepts, ?_⟩
      rw [List.forall_mem_append, List.forall_mem_singleton]
      exact ⟨hkept, hcall⟩
    · exact ⟨session, call.2, [], by rw [hinstant], hmem, hjoins, haccepts,
        fun _ h => absurd h List.not_mem_nil⟩

/-- A request that removes citations submits none. -/
theorem submitted_of_removes {q : Request} {a b : String} (h : q.removes a b = true) :
    q.submitted = [] := by
  cases q with
  | submit cs => cases h
  | _ => rfl

/-- **The account lists** the acceptances since the last removal. -/
theorem mem_accepted_iff {a b : String} {session : Session} {x : Acceptance} :
    x ∈ (account session).accepted a b ↔ AcceptedSince a b session x := by
  induction session using List.reverseRecOn with
  | nil => simp [account, Account.start, AcceptedSince]
  | append_singleton session call ih =>
    rw [account_snoc, acceptedSince_snoc, ← ih, Account.accepted_after]
    by_cases hremoves : call.2.removes a b = true
    · rw [if_pos hremoves, hremoves, submitted_of_removes hremoves]
      simp [Account.acceptances]
    · rw [if_neg hremoves, List.mem_append]
      simp [hremoves]

/-! ### The graph in memory -/

/-- The graph in memory with limits on pages. -/
def inMemory (defaultLimit maxLimit : Nat) : Engine Memory := ⟨Memory.store, defaultLimit, maxLimit⟩

/-- **The graph follows an account**: it has its papers and the citations that it accepted. -/
structure Follows (m : Memory) (k : Account) : Prop where
  isPaper : m.isPaper = k.papers
  edges : ∀ a b, m.edges.find? (a, b) = attributesOf (k.accepted a b)

theorem find?_putAll {edges : Table (String × String) Attributes} {a b : String}
    {xs : List Acceptance} (h : edges.find? (a, b) = attributesOf xs) (now : Instant)
    (cs : List Citation) :
    (Memory.putAll edges now cs).find? (a, b) =
      attributesOf (xs ++ (cs.filter (joins a b)).map (⟨now, ·⟩)) := by
  induction cs generalizing edges xs with
  | nil => simpa [Memory.putAll] using h
  | cons c cs ih =>
    have hput := Memory.find?_put edges now c (a, b)
    by_cases hc : joins a b c = true
    · have hkey : (a, b) = (c.citing, c.cited) := by
        simp only [joins, Bool.and_eq_true, beq_iff_eq] at hc
        rw [hc.1, hc.2]
      rw [if_pos hkey, h, ← attributesOf_snoc] at hput
      rw [List.filter_cons_of_pos hc, List.map_cons, List.append_cons]
      exact ih hput
    · have hkey : (a, b) ≠ (c.citing, c.cited) := by
        rintro heq
        obtain ⟨rfl, rfl⟩ := Prod.mk.inj heq
        simp [joins] at hc
      rw [if_neg hkey, h] at hput
      rw [List.filter_cons_of_neg hc]
      exact ih hput

section InMemory
variable {defaultLimit maxLimit : Nat}

/-- **A batch in memory** merges the accepted citations and counts them. -/
theorem submit_inMemory (m : Memory) (now : Instant) (cs : List Citation) :
    (inMemory defaultLimit maxLimit).submit now cs m =
      (.ok ⟨cs.length, cs.countP (accepts m.isPaper), cs.length - cs.countP (accepts m.isPaper)⟩,
        { m with edges := Memory.putAll m.edges now (cs.filter (accepts m.isPaper)) }) := by
  have hfilter : (cs.filter isSubmittable).filter m.admits = cs.filter (accepts m.isPaper) := by
    rw [List.filter_filter]
    refine List.filter_congr fun c _ => ?_
    exact Bool.and_comm (m.admits c) (isSubmittable c)
  rw [List.countP_eq_length_filter, ← hfilter]
  by_cases hkept : (cs.filter isSubmittable).isEmpty = true
  · rw [Engine.submit_of_isEmpty hkept, List.isEmpty_iff.1 hkept]
    rfl
  · exact Engine.submit_of_merge hkept (Memory.merge_eq m _)

theorem follows_start : Follows .empty .start := ⟨rfl, fun _ _ => rfl⟩

theorem accepted_after_of_submitted {k : Account} {call : Instant × Request}
    (h : call.2.submitted = []) (a b : String) :
    (k.after call).accepted a b = if call.2.removes a b then [] else k.accepted a b := by
  rw [Account.accepted_after, h, Account.acceptances, List.filter_nil, List.filter_nil,
    List.map_nil, List.append_nil]

/-- The citations that are left without those at a URI. -/
theorem find?_without_of_follows {m : Memory} {k : Account} (h : Follows m k) (uri a b : String) :
    (m.without uri).find? (a, b) =
      attributesOf (if a == uri || b == uri then [] else k.accepted a b) := by
  rw [Memory.find?_without, h.edges]
  exact (apply_ite attributesOf ((a == uri || b == uri) = true) [] _).symm

/-- **A request** is noted in the account as it changes the graph. -/
theorem follows_serve {m : Memory} {k : Account} (h : Follows m k) (call : Instant × Request) :
    Follows ((inMemory defaultLimit maxLimit).serve call.1 call.2 m).2 (k.after call) := by
  obtain ⟨now, q⟩ := call
  -- A request that neither submits nor removes citations changes nothing between two ends.
  have hsame : q.submitted = [] → (∀ a b, q.removes a b = false) →
      ∀ a b, m.edges.find? (a, b) = attributesOf ((k.after (now, q)).accepted a b) := by
    intro hnone hkeep a b
    rw [accepted_after_of_submitted hnone, hkeep, h.edges]
    rfl
  cases q with
  | register uri =>
    have hedges := hsame rfl fun _ _ => rfl
    change Follows ((inMemory defaultLimit maxLimit).register uri m).2 _
    rw [Engine.register]
    by_cases hblank : Text.isBlankText uri = true
    · rw [if_pos hblank]
      exact ⟨h.isPaper.trans (if_pos hblank).symm, hedges⟩
    · rw [if_neg hblank]
      refine ⟨(funext fun u => ?_).trans (if_neg hblank).symm, hedges⟩
      refine (Memory.isPaper_addPaper m uri u).trans ?_
      rw [h.isPaper, Function.update_apply]
      by_cases hu : u = uri <;> simp [hu]
  | remove uri =>
    refine ⟨funext fun u => ?_, fun a b => ?_⟩
    · refine (Memory.isPaper_removePaper m uri u).trans ?_
      rw [h.isPaper]
      change _ = update k.papers uri false u
      rw [Function.update_apply]
      by_cases hu : u = uri <;> simp [hu]
    · rw [accepted_after_of_submitted rfl]
      exact find?_without_of_follows h uri a b
  | submit cs =>
    change Follows ((inMemory defaultLimit maxLimit).submit now cs m).2 _
    rw [submit_inMemory, h.isPaper]
    exact ⟨h.isPaper, fun a b => find?_putAll (h.edges a b) now _⟩
  | deleteFor uri =>
    refine ⟨h.isPaper, fun a b => ?_⟩
    rw [accepted_after_of_submitted rfl]
    exact find?_without_of_follows h uri a b
  | citing uri page => exact ⟨h.isPaper, hsame rfl fun _ _ => rfl⟩
  | references uri page => exact ⟨h.isPaper, hsame rfl fun _ _ => rfl⟩
  | coCited uri threshold => exact ⟨h.isPaper, hsame rfl fun _ _ => rfl⟩

/-- **A session** is noted in its account. -/
theorem follows_run (session : Session) :
    Follows ((inMemory defaultLimit maxLimit).run session .empty) (account session) := by
  induction session using List.reverseRecOn with
  | nil => exact follows_start
  | append_singleton session call ih =>
    rw [Engine.run_append, account_snoc]
    exact follows_serve ih call

/-- **A batch in two parts** at one instant does what the whole batch does. -/
theorem submit_append (m : Memory) (now : Instant) (cs cs' : List Citation) :
    ∃ o o', ((inMemory defaultLimit maxLimit).submit now cs m).1 = .ok o ∧
      ((inMemory defaultLimit maxLimit).submit now cs'
        ((inMemory defaultLimit maxLimit).submit now cs m).2).1 = .ok o' ∧
      (inMemory defaultLimit maxLimit).submit now (cs ++ cs') m =
        (.ok ⟨o.submitted + o'.submitted, o.materialized + o'.materialized, o.skipped + o'.skipped⟩,
          ((inMemory defaultLimit maxLimit).submit now cs'
            ((inMemory defaultLimit maxLimit).submit now cs m).2).2) := by
  simp only [submit_inMemory]
  refine ⟨⟨cs.length, cs.countP (accepts m.isPaper), cs.length - cs.countP (accepts m.isPaper)⟩,
    ⟨cs'.length, cs'.countP (accepts m.isPaper), cs'.length - cs'.countP (accepts m.isPaper)⟩,
    rfl, rfl, ?_⟩
  have hle : cs.countP (accepts m.isPaper) ≤ cs.length := List.countP_le_length
  have hle' : cs'.countP (accepts m.isPaper) ≤ cs'.length := List.countP_le_length
  have hskipped : cs.length + cs'.length -
      (cs.countP (accepts m.isPaper) + cs'.countP (accepts m.isPaper)) =
        cs.length - cs.countP (accepts m.isPaper) +
          (cs'.length - cs'.countP (accepts m.isPaper)) := by omega
  rw [List.filter_append, Memory.putAll_append, List.countP_append, List.length_append, hskipped]
  rfl

theorem attributesOf_resubmitted (xs : List Acceptance) (now now' : Instant) (cs : List Citation) :
    attributesOf (xs ++ cs.map (⟨now, ·⟩) ++ cs.map (⟨now', ·⟩)) =
      attributesOf (xs ++ cs.map (⟨now, ·⟩)) := by
  rcases List.eq_nil_or_concat' cs with rfl | ⟨cs, c, rfl⟩
  · rw [List.map_nil, List.map_nil, List.append_nil]
  · unfold attributesOf
    have hlast : ∀ (ys : List Acceptance) (t : Instant),
        (ys ++ (cs ++ [c]).map (Acceptance.mk t)).getLast? = some ⟨t, c⟩ := by
      intro ys t
      rw [List.map_append, List.map_cons, List.map_nil, ← List.append_assoc, List.getLast?_concat]
    rw [List.head?_append_of_ne_nil _ (by simp), hlast, hlast]
    rfl

/-- **A batch that is submitted again** right away leaves the graph as it is. -/
theorem submit_again {m : Memory} {k : Account} (h : Follows m k) (now now' : Instant)
    (cs : List Citation) :
    ((inMemory defaultLimit maxLimit).submit now' cs
      ((inMemory defaultLimit maxLimit).submit now cs m).2).2 =
        ((inMemory defaultLimit maxLimit).submit now cs m).2 := by
  simp only [submit_inMemory]
  refine congrArg (Memory.mk m.papers) (Table.ext_find? ?_ ?_)
  -- Each citation has its place from the first time, and its attributes are merged in again.
  · exact Memory.keys_putAll now' fun c hc => Memory.mem_keys_putAll.2 (.inl ⟨c, hc, rfl⟩)
  · rintro ⟨a, b⟩
    have hfirst := find?_putAll (h.edges a b) now (cs.filter (accepts m.isPaper))
    refine (find?_putAll hfirst now' _).trans ?_
    exact (attributesOf_resubmitted _ _ _ _).trans hfirst.symm

/-- **The citations and the outcomes follow the history of a session.** After it there is a citation
from `a` to `b` exactly if one was accepted and neither end was removed or had its citations deleted
since then; its attributes are those of the last acceptance, its instant is that of the first one. A
batch reports how many of its citations are accepted; it may be submitted in parts, and again. -/
theorem edges_of_history (defaultLimit maxLimit : Nat) (session : Session) :
    let e := inMemory defaultLimit maxLimit
    let m := e.run session .empty
    m.isPaper = (account session).papers ∧
    (∀ a b, (m.edges.find? (a, b)).isSome = true ↔ ∃ x, AcceptedSince a b session x) ∧
    (∀ a b, m.edges.find? (a, b) = attributesOf ((account session).accepted a b)) ∧
    (∀ a b x, x ∈ (account session).accepted a b ↔ AcceptedSince a b session x) ∧
    (∀ now cs, ∃ n, n = cs.countP (accepts (account session).papers) ∧ n ≤ cs.length ∧
      (e.submit now cs m).1 = .ok ⟨cs.length, n, cs.length - n⟩) ∧
    (∀ now cs cs', ∃ o o', (e.submit now cs m).1 = .ok o ∧
      (e.submit now cs' (e.submit now cs m).2).1 = .ok o' ∧
      e.submit now (cs ++ cs') m =
        (.ok ⟨o.submitted + o'.submitted, o.materialized + o'.materialized, o.skipped + o'.skipped⟩,
          (e.submit now cs' (e.submit now cs m).2).2)) ∧
    ∀ now now' cs, (e.submit now' cs (e.submit now cs m).2).2 = (e.submit now cs m).2 := by
  intro e m
  have h : Follows m (account session) := follows_run session
  refine ⟨h.isPaper, fun a b => ?_, h.edges, fun _ _ _ => mem_accepted_iff, fun now cs => ?_,
    submit_append m, submit_again h⟩
  · rw [h.edges, isSome_attributesOf_iff]
    exact exists_congr fun _ => mem_accepted_iff
  · refine ⟨_, rfl, List.countP_le_length, ?_⟩
    rw [← h.isPaper]
    exact congrArg Prod.fst (submit_inMemory m now cs)

end InMemory

end PaperIndex.Citations
