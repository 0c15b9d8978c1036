import PaperIndex.Proofs.Counter.Agreement

/-! # Expired entries leave no trace

An entry that has expired stays in the store until a pipeline touches its key. Nothing that is asked
of the store from then on depends on it: if all entries that have expired at an instant are taken out
(`Memory.pruned`), every later session has the same replies (`replies_pruned`), be they failures or
not, and in whatever order its instants come.

Two states that show the same live entries at an instant (`Memory.SameFrom`) show the same at every
later one. Copies, answers and scans see live entries only, so a call is answered alike in both
states, and leaves two states that still show the same (`serve_sameFrom`). -/

namespace PaperIndex.Counter

/-- Whether an entry has expired at an instant. -/
def Entry.hasExpired (instant : Int) (e : Entry) : Bool := e.expiry.any (· ≤ instant)

theorem Entry.not_hasExpired (instant : Int) (e : Entry) :
    (!e.hasExpired instant) = isLive instant e.expiry := by
  unfold hasExpired isLive
  cases e.expiry with
  | none => rfl
  | some x =>
    rw [Option.any_some, Option.all_some, ← decide_not, decide_eq_decide]
    exact Int.not_le

namespace Memory

/-- The store without the entries that have expired at an instant. -/
def pruned (instant : Int) (m : Memory) : Memory :=
  ⟨m.entries.filter fun _ e => !e.hasExpired instant⟩

/-- **Two states show the same** from an instant on: each key has the same live entry, or none. -/
def SameFrom (instant : Int) (m m' : Memory) : Prop :=
  ∀ key, m'.live? instant key = m.live? instant key

/-- What is left are the live entries. -/
theorem find?_pruned (instant : Int) (m : Memory) (key : String) :
    (m.pruned instant).entries.find? key = m.live? instant key := by
  have hlive : (fun e : Entry => !e.hasExpired instant) = fun e => isLive instant e.expiry :=
    funext fun e => e.not_hasExpired instant
  unfold pruned
  rw [Table.find?_filter, hlive]
  rfl

theorem sameFrom_pruned (instant : Int) (m : Memory) : SameFrom instant m (m.pruned instant) := by
  intro key
  have hfind := find?_pruned instant m key
  unfold Memory.live? at hfind ⊢
  rw [hfind, Option.filter_filter]
  simp only [Bool.and_self]

section Same
variable {instant now : Int} {m m' : Memory}

theorem SameFrom.later (h : SameFrom instant m m') (hle : instant ≤ now) : SameFrom now m m' := by
  intro key
  rw [live?_later m' hle, live?_later m hle, h key]

/-! ### Pipelines -/

/-- Operations are staged alike. -/
theorem stage_sameFrom (h : SameFrom now m m') (ops : List Op) (staged : Staged) :
    m'.stage now ops staged = m.stage now ops staged := by
  induction ops generalizing staged with
  | nil => rfl
  | cons op ops ih =>
    have hslot : m'.slot now staged op.key = m.slot now staged op.key := by
      unfold Memory.slot
      rw [h op.key]
    rw [stage_cons, stage_cons, hslot]
    cases op.apply now (m.slot now staged op.key) with
    | error e => rfl
    | ok slot => exact ih (staged.insert op.key slot)

/-- Copies that are put into place leave states that show the same. -/
theorem commit_sameFrom (h : SameFrom instant m m') (staged : Staged) :
    SameFrom instant (m.commit staged) (m'.commit staged) := by
  intro key
  have hkey := h key
  unfold Memory.live? at hkey ⊢
  rw [find?_commit, find?_commit]
  cases staged.find? key with
  | none => exact hkey
  | some slot => rfl

/-- **A pipeline** has the same result in both states, and they show the same after it. -/
theorem exec_sameFrom {p : Pipeline} (h : SameFrom instant m m') (hle : instant ≤ p.now) :
    (exec p m').1 = (exec p m).1 ∧ SameFrom instant (exec p m).2 (exec p m').2 := by
  have hstage := stage_sameFrom (h.later hle) p.ops .empty
  unfold exec
  rw [hstage]
  cases m.stage p.now p.ops .empty with
  | error e => exact ⟨rfl, h⟩
  | ok staged => exact ⟨rfl, commit_sameFrom h staged⟩

/-! ### Reads -/

theorem read_sameFrom (h : SameFrom now m m') (qs : List Query) : read qs now m' = read qs now m := by
  have hanswer : m'.answer now = m.answer now := by
    funext q
    unfold answer
    rw [h q.key]
  unfold read
  rw [hanswer]

theorem scan_sameFrom (h : SameFrom now m m') (lead : String) :
    scan lead now m' = scan lead now m := by
  refine scan_congr (fun key => ?_) lead
  have hkey := congrArg Option.isSome (h key)
  unfold Memory.live? at hkey
  rwa [Option.isSome_filter, Option.isSome_filter] at hkey

/-! ### Sessions -/

/-- **A call** is answered alike in both states, and they show the same after it. -/
theorem serve_sameFrom {q : Request} (h : SameFrom instant m m') (hle : instant ≤ q.instant) :
    (store.serve q m').1 = (store.serve q m).1 ∧
      SameFrom instant (store.serve q m).2 (store.serve q m').2 := by
  cases q with
  | exec p =>
    obtain ⟨hresult, hsame⟩ := exec_sameFrom (p := p) h hle
    exact ⟨congrArg (Except.map fun _ => Reply.done) hresult, hsame⟩
  | read qs now =>
    have hread : read qs now m' = read qs now m := read_sameFrom (h.later hle) qs
    exact ⟨congrArg (Except.map Reply.answers) hread, h⟩
  | scan lead now =>
    have hscan : scan lead now m' = scan lead now m := scan_sameFrom (h.later hle) lead
    exact ⟨congrArg (Except.map Reply.keys) hscan, h⟩

theorem replies_sameFrom {session : List Request} (h : SameFrom instant m m')
    (hlater : ∀ q ∈ session, instant ≤ q.instant) :
    store.replies session m' = store.replies session m := by
  induction session generalizing m m' with
  | nil => rfl
  | cons q session ih =>
    obtain ⟨hq, hsession⟩ := List.forall_mem_cons.1 hlater
    obtain ⟨hreply, hsame⟩ := serve_sameFrom h hq
    rw [Store.replies, Store.replies, hreply, ih hsame hsession]

end Same

/-- **An expired entry cannot be told from an absent one.** Without the entries that have expired at
an instant, the store gives the same replies to every session from that instant on. -/
theorem replies_pruned (m : Memory) (instant : Int) {session : List Request}
    (hlater : ∀ q ∈ session, instant ≤ q.instant) :
    store.replies session (m.pruned instant) = store.replies session m :=
  replies_sameFrom (sameFrom_pruned instant m) hlater

/-- A set that has expired and becomes a tally, and a tally that becomes a set once it has expired,
which fails before that. The instants go back and forth. -/
theorem replies_pruned_retyped :
    let m : Memory := ⟨.ofRows [("k", ⟨.scores (.ofRows [("a", 4)]), some 5⟩),
      ("t", ⟨.tally 3, some 8⟩)]⟩
    let revive : List Op := [.add "k" 1, .place "t" "b" 2]
    let session : List Request :=
      [.read [.tally "k", .tally "t"] 6, .exec ⟨7, revive⟩, .exec ⟨9, revive⟩, .scan "" 6,
        .read [.tally "k", .within "t" 0 9] 5]
    m.entries.keys = ["k", "t"] ∧ (m.pruned 5).entries.keys = ["t"] ∧
      (∀ q ∈ session, 5 ≤ q.instant) ∧
      (store.replies session m).map Except.isOk = [true, false, true, true, true] ∧
      store.replies session (m.pruned 5) = store.replies session m := by
  intro m revive session
  have hlater : ∀ q ∈ session, 5 ≤ q.instant := by decide
  exact ⟨rfl, rfl, hlater, rfl, replies_pruned m 5 hlater⟩

end Memory

end PaperIndex.Counter
