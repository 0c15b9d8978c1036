import Mathlib.Data.String.Basic
import PaperIndex.Proofs.Counter.Session
import PaperIndex.Proofs.Counter.Shows

/-! # The two counter stores agree

A session whose instants never decrease, and of which no call fails in memory, has the same replies
from the relational store, with one exception: a lead with a null character is not found there. The
two states mirror each other key by key (`Mirrors`): the rows of a key show its live entry, except
that the rows of a key that has expired stay until the next pipeline purges them.

* `mirrors_exec`: a pipeline that succeeds in memory succeeds in the relational store, and the
  states mirror each other afterwards;
* `answer_eq`, `scan_eq`: states that mirror each other give the same answers;
* `replies_agree`: the replies to a session are the same exactly when every scan for a lead with a
  null character finds nothing in memory. -/

namespace PaperIndex.Counter

/-- **A state in memory and a relational one mirror each other** at an instant. -/
def Mirrors (now : Int) (m : Memory) (r : Relational) : Prop :=
  ∀ key, (r.hasExpired now key = true ∧ m.live? now key = none) ∨
    Shows (r.rowsAt key) (m.live? now key)

/-! ### Time -/

theorem hasExpired_iff {r : Relational} {now : Int} {key : String} :
    r.hasExpired now key = true ↔ ∃ x, r.keys.find? key = some (some x) ∧ x ≤ now := by
  unfold Relational.hasExpired
  rcases r.keys.find? key with _ | _ | x <;> simp

theorem hasExpired_mono {r : Relational} {now now' : Int} {key : String} (hle : now ≤ now')
    (h : r.hasExpired now key = true) : r.hasExpired now' key = true := by
  obtain ⟨x, hx, hnow⟩ := hasExpired_iff.1 h
  exact hasExpired_iff.2 ⟨x, hx, hnow.trans hle⟩

theorem isLive_of_le {now now' : Int} {x : Option Int} (hle : now ≤ now')
    (h : isLive now' x = true) : isLive now x = true := by
  cases x with
  | none => rfl
  | some x =>
    simp only [isLive, Option.all_some, decide_eq_true_eq] at h ⊢
    omega

/-- The live entry of a key at a later instant is the one of the earlier instant, or none. -/
theorem live?_later (m : Memory) {now now' : Int} (hle : now ≤ now') (key : String) :
    m.live? now' key = (m.live? now key).filter fun e => isLive now' e.expiry := by
  unfold Memory.live?
  rw [Option.filter_filter]
  congr 1
  funext e
  cases h : isLive now' e.expiry with
  | false => rw [Bool.and_false]
  | true => rw [isLive_of_le hle h, Bool.and_true]

theorem mirrors_mono {m : Memory} {r : Relational} {now now' : Int} (hle : now ≤ now')
    (h : Mirrors now m r) : Mirrors now' m r := by
  intro key
  rw [live?_later m hle]
  rcases h key with ⟨hx, hnone⟩ | hs
  · rw [hnone]
    exact .inl ⟨hasExpired_mono hle hx, rfl⟩
  · cases he : m.live? now key with
    | none =>
      rw [he] at hs
      exact .inr hs
    | some e =>
      by_cases hlive : isLive now' e.expiry = true
      · rw [Option.filter_some, if_pos hlive, ← he]
        exact .inr hs
      · rw [Option.filter_some, if_neg hlive]
        -- The entry has expired since, and so has the key that is listed with its expiry.
        refine .inl ⟨hasExpired_iff.2 ?_, rfl⟩
        have hlisted : r.keys.find? key = some e.expiry := by
          have := expiry_of_shows hs
          rwa [he] at this
        cases hx : e.expiry with
        | none =>
          rw [hx] at hlive
          exact absurd rfl hlive
        | some x =>
          rw [hx] at hlive hlisted
          simp only [isLive, Option.all_some, decide_eq_true_eq, not_lt] at hlive
          exact ⟨x, hlisted, hlive⟩

/-- Rows that show a live slot are not those of a key that has expired. -/
theorem not_hasExpired_of_shows {m : Memory} {r : Relational} {now : Int} {key : String}
    (hs : Shows (r.rowsAt key) (m.live? now key)) : r.hasExpired now key = false := by
  refine Bool.eq_false_iff.2 fun h => ?_
  obtain ⟨x, hx, hle⟩ := hasExpired_iff.1 h
  have hexp := expiry_of_shows hs
  rw [Relational.expiry_rowsAt, hx] at hexp
  obtain ⟨e, he, hex⟩ := Option.map_eq_some_iff.1 hexp.symm
  have hlive := Memory.liveSlot_live? m now key e he
  rw [hex] at hlive
  simp only [isLive, Option.all_some, decide_eq_true_eq] at hlive
  omega

/-! ### Pipelines -/

theorem mirrors_empty (now : Int) : Mirrors now .empty .empty := fun _ => .inr .free

/-- After the purge the rows of every key show its live entry. -/
theorem shows_purge {now : Int} {m : Memory} {r : Relational} (h : Mirrors now m r)
    (key : String) : Shows ((r.purge now).rowsAt key) (m.live? now key) := by
  rw [Relational.rowsAt_purge]
  rcases h key with ⟨hx, hnone⟩ | hs
  · rw [hx, if_pos rfl, hnone]
    exact .free
  · rw [not_hasExpired_of_shows hs, if_neg Bool.false_ne_true]
    exact hs

theorem exec_relational (p : Pipeline) (r : Relational) : (Relational.exec p r).1 = .ok () := by
  unfold Relational.exec
  split <;> rfl

/-- **A pipeline** that succeeds in memory keeps the two states together. -/
theorem mirrors_exec {p : Pipeline} {m : Memory} {r : Relational}
    (hok : (Memory.exec p m).1 = .ok ()) (h : Mirrors p.now m r) :
    Mirrors p.now (Memory.exec p m).2 (Relational.exec p r).2 := by
  obtain ⟨now, ops⟩ := p
  cases ops with
  | nil => exact h
  | cons op ops =>
    intro key
    have hlive := Memory.live?_exec hok key
    rw [Relational.rowsAt_exec (List.cons_ne_nil op ops)]
    exact .inr (shows_applyAll hlive (shows_purge h key))

/-! ### Reads -/

theorem Relational.read_eq_ok_iff {r : Relational} {now : Int} {qs : List Query} {ns : List Int} :
    Relational.read qs now r = .ok ns ↔ List.Forall₂ (fun q n => r.answer now q = .ok n) qs ns :=
  mapM_eq_ok_iff

section Reads
variable {now : Int} {m : Memory} {r : Relational} (h : Mirrors now m r)
include h

theorem isLiveKey_eq (key : String) : r.isLiveKey now key = (m.live? now key).isSome := by
  unfold Relational.isLiveKey
  rcases h key with ⟨hx, hnone⟩ | hs
  · obtain ⟨x, hx, hle⟩ := hasExpired_iff.1 hx
    rw [hx, hnone]
    simpa [isLive] using hle
  · have hexp := expiry_of_shows hs
    rw [Relational.expiry_rowsAt] at hexp
    rw [hexp]
    cases he : m.live? now key with
    | none => rfl
    | some e => exact Memory.liveSlot_live? m now key e he

/-- The rows of a live key show its entry. -/
theorem shows_of_live {key : String} {e : Entry} (he : m.live? now key = some e) :
    Shows (r.rowsAt key) (some e) := by
  rcases h key with ⟨-, hnone⟩ | hs
  · rw [he] at hnone
    cases hnone
  · rwa [he] at hs

omit h in
theorem answer_of_not_live {q : Query} (hlive : r.isLiveKey now q.key = false) :
    r.answer now q = .ok 0 := by
  cases q with
  | tally key =>
    replace hlive : r.isLiveKey now key = false := hlive
    rw [Relational.answer, hlive, if_neg Bool.false_ne_true]
  | count key =>
    replace hlive : r.isLiveKey now key = false := hlive
    simp only [Relational.answer, hlive]
    rfl
  | within key low high =>
    replace hlive : r.isLiveKey now key = false := hlive
    rw [Relational.answer, hlive, if_neg Bool.false_ne_true]

/-- **A question** that memory answers has the same answer from the relations. -/
theorem answer_eq {q : Query} {n : Int} (hok : m.answer now q = .ok n) :
    r.answer now q = .ok n := by
  have hlive := isLiveKey_eq h q.key
  unfold Memory.answer at hok
  cases he : m.live? now q.key with
  | none =>
    rw [he] at hok hlive
    cases hok
    exact answer_of_not_live hlive
  | some e =>
    rw [he] at hok hlive
    have hs := shows_of_live h he
    generalize hrows : r.rowsAt q.key = rows at hs
    cases q with
    | tally key =>
      replace hlive : r.isLiveKey now key = true := hlive
      cases hs with
      | tally n' x =>
        have htally : r.tallies.find? key = some (.integer n') := congrArg Rows.tally hrows
        cases hok
        rw [Relational.answer, hlive, if_pos rfl, htally]
        rfl
      | sketch S kept x hk => cases hok
      | scores t x ht => cases hok
    | count key =>
      replace hlive : r.isLiveKey now key = true := hlive
      cases hs with
      | sketch S kept x hk =>
        have hkept : (r.rowsAt key).kept = kept := congrArg Rows.kept hrows
        have hrank : (r.rowsAt key).rank = Rows.rankRow S := congrArg Rows.rank hrows
        replace hok : Sketch.answered S = n := by
          rw [Sketch.answered, ← Sketch.count_ofSet]
          exact Except.ok.inj hok
        simp only [Relational.answer, hlive, if_pos, Relational.hashCount_eq, hkept,
          Relational.ranks_eq, hrank, getD_rankRow, Relational.readRank_of_le (Sketch.rankAt_le S _),
          card_kept_le_iff hk, ← hok]
        split_ifs with hS
        · rw [hk.1 hS, Sketch.answered_of_card_le hS]
        · rw [Sketch.answered, Sketch.cardinality, if_neg hS]
      | tally n' x => cases hok
      | scores t x ht => cases hok
    | within key low high =>
      replace hlive : r.isLiveKey now key = true := hlive
      cases hs with
      | scores t x ht =>
        have hscore : ∀ member, (r.rowsAt key).score member = t.find? member :=
          congrFun (congrArg Rows.score hrows)
        cases hok
        rw [Relational.answer, hlive, if_pos rfl, Relational.countP_scores hscore]
      | tally n' x => cases hok
      | sketch S kept x hk => cases hok

theorem read_eq {qs : List Query} {ns : List Int} (hok : Memory.read qs now m = .ok ns) :
    Relational.read qs now r = .ok ns :=
  Relational.read_eq_ok_iff.2 ((Memory.read_eq_ok_iff.1 hok).imp fun _ _ => answer_eq h)

end Reads

/-! ### Scans -/

theorem sortKeys_congr {ks ks' : List String} (h : ks.Perm ks') : sortKeys ks = sortKeys ks' := by
  have hsorted : ∀ ks : List String, (sortKeys ks).Pairwise (· ≤ ·) := fun ks => by
    refine (List.pairwise_mergeSort ?_ ?_ ks).imp fun h => of_decide_eq_true h
    · intro a b c hab hbc
      exact decide_eq_true ((of_decide_eq_true hab).trans (of_decide_eq_true hbc))
    · intro a b
      rw [Bool.or_eq_true, decide_eq_true_eq, decide_eq_true_eq]
      exact le_total a b
  have hperm : (sortKeys ks).Perm (sortKeys ks') :=
    (List.mergeSort_perm ks _).trans (h.trans (List.mergeSort_perm ks' _).symm)
  exact hperm.eq_of_pairwise (fun _ _ _ _ => le_antisymm) (hsorted ks) (hsorted ks')

/-- A scan in memory depends on the keys that are live only. -/
theorem scan_congr {m m' : Memory} {now : Int}
    (h : ∀ key, (m'.entries.find? key).any (fun e => isLive now e.expiry) =
      (m.entries.find? key).any fun e => isLive now e.expiry) (lead : String) :
    Memory.scan lead now m' = Memory.scan lead now m :=
  congrArg Except.ok (sortKeys_congr (Table.keys_filter_perm (Text.hasLead lead) h))

/-- **A scan** for a lead without a null character finds the same keys in both stores. -/
theorem scan_eq {now : Int} {m : Memory} {r : Relational} (h : Mirrors now m r) {lead : String}
    (hnull : '\x00' ∉ lead.toList) : Relational.scan lead now r = Memory.scan lead now m := by
  have hlead : Relational.hasLead lead = Text.hasLead lead := by
    funext key
    unfold Relational.hasLead
    rw [List.contains_eq_mem, decide_eq_false hnull, Bool.not_false, Bool.and_true]
  unfold Relational.scan Memory.scan
  rw [hlead]
  have hlive : ∀ key, (r.keys.find? key).any (fun x => isLive now x) =
      (m.entries.find? key).any fun e => isLive now e.expiry := by
    intro key
    have hkey := isLiveKey_eq h key
    unfold Memory.live? at hkey
    rwa [Option.isSome_filter] at hkey
  exact congrArg _ (sortKeys_congr (Table.keys_filter_perm _ hlive))

/-- A lead with a null character is not found in the relations. -/
theorem scan_null (now : Int) (r : Relational) {lead : String} (hnull : '\x00' ∈ lead.toList) :
    Relational.scan lead now r = .ok [] := by
  have hnone : (r.keys.rows.filter fun row => Relational.hasLead lead row.1 && isLive now row.2) =
      [] := by
    refine List.filter_eq_nil_iff.2 fun row _ => ?_
    unfold Relational.hasLead
    rw [List.contains_eq_mem, decide_eq_true hnull, Bool.not_true, Bool.and_false, Bool.false_and]
    exact Bool.false_ne_true
  unfold Relational.scan
  simp only [hnone]
  simp [sortKeys]

/-! ### Sessions -/

/-- A scan for a lead with a null character. -/
def Request.namesNull : Request → Bool
  | .scan lead _ => lead.toList.contains '\x00'
  | _ => false

/-- The reply of the relational store to a call, from the one of the store in memory. -/
def Request.seen (q : Request) (reply : Except StoreError Reply) : Except StoreError Reply :=
  if q.namesNull then .ok (.keys []) else reply

/-- **One call** that succeeds in memory is served alike and keeps the two states together. -/
theorem serve_eq {q : Request} {m : Memory} {r : Relational} {a : Reply}
    (h : Mirrors q.instant m r) (hok : (Memory.store.serve q m).1 = .ok a) :
    (Relational.store.serve q r).1 = q.seen (.ok a) ∧
      Mirrors q.instant (Memory.store.serve q m).2 (Relational.store.serve q r).2 := by
  cases q with
  | exec p =>
    change (Memory.exec p m).1.map _ = _ at hok
    cases he : (Memory.exec p m).1 with
    | error e => rw [he] at hok; cases hok
    | ok u =>
      rw [he] at hok
      cases hok
      refine ⟨?_, mirrors_exec he h⟩
      change (Relational.exec p r).1.map _ = _
      rw [exec_relational]
      rfl
  | read qs now =>
    change (Memory.read qs now m).map _ = _ at hok
    cases he : Memory.read qs now m with
    | error e => rw [he] at hok; cases hok
    | ok ns =>
      rw [he] at hok
      cases hok
      refine ⟨?_, h⟩
      replace h : Mirrors now m r := h
      change (Relational.read qs now r).map _ = _
      rw [read_eq h he]
      rfl
  | scan lead now =>
    refine ⟨?_, h⟩
    replace h : Mirrors now m r := h
    change (Relational.scan lead now r).map _ = _
    by_cases hnull : '\x00' ∈ lead.toList
    · have hn : (Request.scan lead now).namesNull = true := List.contains_iff_mem.2 hnull
      rw [scan_null now r hnull, Request.seen, if_pos hn]
      rfl
    · have hn : ¬(Request.scan lead now).namesNull = true := mt List.contains_iff_mem.1 hnull
      rw [scan_eq h hnull, Request.seen, if_neg hn]
      exact hok

/-- A call that succeeds in memory is seen to succeed. -/
theorem seen_of_ok (q : Request) {reply : Except StoreError Reply} (h : ∃ a, reply = .ok a) :
    ∃ a, q.seen reply = .ok a := by
  unfold Request.seen
  split
  · exact ⟨_, rfl⟩
  · exact h

/-- From states that mirror each other, the replies to a session differ at most where a lead has a
null character. -/
theorem replies_eq {session : List Request} {m : Memory} {r : Relational} {now : Int}
    (hord : InOrder session) (hnow : ∀ q ∈ session, now ≤ q.instant) (h : Mirrors now m r)
    (hok : Memory.store.Serves session m) :
    Relational.store.replies session r =
      List.zipWith Request.seen session (Memory.store.replies session m) := by
  induction session generalizing m r now with
  | nil => rfl
  | cons q session ih =>
    obtain ⟨⟨a, ha⟩, hok⟩ := Store.serves_cons_iff.1 hok
    obtain ⟨hq, hord⟩ := List.pairwise_cons.1 hord
    obtain ⟨hreply, hstep⟩ := serve_eq (mirrors_mono (hnow q List.mem_cons_self) h) ha
    rw [Store.replies, Store.replies, List.zipWith_cons_cons, hreply, ha, ih hord hq hstep hok]

theorem zipWith_seen_eq_iff (session : List Request) (replies : List (Except StoreError Reply))
    (hlen : replies.length = session.length) :
    List.zipWith Request.seen session replies = replies ↔
      ∀ qa ∈ session.zip replies, qa.1.namesNull = true → qa.2 = .ok (.keys []) := by
  induction session generalizing replies with
  | nil =>
    rw [List.eq_nil_of_length_eq_zero hlen]
    simp
  | cons q session ih =>
    obtain ⟨a, replies, rfl⟩ := List.exists_cons_of_length_eq_add_one hlen
    rw [List.zipWith_cons_cons, List.cons.injEq, List.zip_cons_cons, List.forall_mem_cons,
      ih replies (Nat.succ.inj hlen)]
    refine and_congr_left' ?_
    unfold Request.seen
    by_cases hn : q.namesNull = true
    · rw [if_pos hn]
      exact ⟨fun h _ => h.symm, fun h => (h hn).symm⟩
    · rw [if_neg hn]
      exact ⟨fun _ h => absurd h hn, fun _ => rfl⟩

theorem length_replies {σ : Type} (s : Store σ) (session : List Request) (st : σ) :
    (s.replies session st).length = session.length := by
  induction session generalizing st with
  | nil => rfl
  | cons q session ih => rw [Store.replies, List.length_cons, ih, List.length_cons]

/-- **The two stores agree.** If no call of a session in order of time fails in memory, none fails
in the relational store, and the replies are the same up to the scans for a lead with a null
character; so they are the same exactly when each of these scans finds nothing in memory. -/
theorem replies_agree {session : List Request} (hord : InOrder session)
    (hok : Memory.store.Serves session .empty) :
    Relational.store.Serves session .empty ∧
      Relational.store.replies session .empty =
        List.zipWith Request.seen session (Memory.store.replies session .empty) ∧
      (Relational.store.replies session .empty = Memory.store.replies session .empty ↔
        ∀ qa ∈ session.zip (Memory.store.replies session .empty),
          qa.1.namesNull = true → qa.2 = .ok (.keys [])) := by
  have heq : Relational.store.replies session .empty =
      List.zipWith Request.seen session (Memory.store.replies session .empty) := by
    cases session with
    | nil => rfl
    | cons q session =>
      refine replies_eq hord (fun q' hq' => ?_) (mirrors_empty q.instant) hok
      rcases List.mem_cons.1 hq' with rfl | hq'
      · exact le_rfl
      · exact (List.pairwise_cons.1 hord).1 q' hq'
  refine ⟨?_, heq, ?_⟩
  · unfold Store.Serves
    rw [heq, ← List.map_uncurry_zip_eq_zipWith, List.forall_mem_map]
    exact fun qa hqa => seen_of_ok qa.1 (hok qa.2 (List.of_mem_zip hqa).2)
  rw [heq]
  exact zipWith_seen_eq_iff session _ (length_replies _ session _)

/-- A key that is a set until it expires, and a tally after that. -/
theorem replies_agree_retyped :
    let session : List Request :=
      [.exec ⟨0, [.place "k" "m" 1, .trim "k" 0, .expire "k" 5]⟩, .read [.within "k" 0 9] 4,
        .scan "k" 5, .exec ⟨5, [.add "k" 3]⟩, .read [.tally "k"] 6]
    InOrder session ∧ Memory.store.Serves session .empty ∧
      Relational.store.replies session .empty = Memory.store.replies session .empty := by
  intro session
  have hord : InOrder session := by
    unfold InOrder
    decide
  have hok : Memory.store.Serves session .empty := by
    unfold session
    simp only [Store.serves_cons_iff]
    exact ⟨⟨_, rfl⟩, ⟨_, rfl⟩, ⟨_, rfl⟩, ⟨_, rfl⟩, ⟨_, rfl⟩, fun _ h => absurd h List.not_mem_nil⟩
  have hnull : ∀ q ∈ session, q.namesNull = false := by decide
  refine ⟨hord, hok, (replies_agree hord hok).2.2.2 fun qa hqa hn => ?_⟩
  rw [hnull qa.1 (List.of_mem_zip hqa).1] at hn
  cases hn

/-- A key with a null character is found in memory by its lead, and not in the relational store. -/
theorem replies_differ_at_null :
    let session : List Request := [.exec ⟨0, [.add "a\x00b" 1]⟩, .scan "a\x00" 0]
    InOrder session ∧ Memory.store.Serves session .empty ∧
      Memory.store.replies session .empty = [.ok .done, .ok (.keys ["a\x00b"])] ∧
      Relational.store.replies session .empty = [.ok .done, .ok (.keys [])] := by
  intro session
  have hord : InOrder session := by
    unfold InOrder
    decide
  have hok : Memory.store.Serves session .empty := by
    unfold session
    simp only [Store.serves_cons_iff]
    exact ⟨⟨_, rfl⟩, ⟨_, rfl⟩, fun _ h => absurd h List.not_mem_nil⟩
  have hmemory : Memory.store.replies session .empty =
      [.ok .done, .ok (.keys (sortKeys ["a\x00b"]))] := rfl
  have hrelational : Relational.store.replies session .empty =
      [.ok .done, .ok (.keys (sortKeys []))] := rfl
  refine ⟨hord, hok, ?_, ?_⟩
  · rw [hmemory, sortKeys, List.mergeSort_singleton]
  · rw [hrelational, sortKeys, List.mergeSort_nil]

end PaperIndex.Counter
