import PaperIndex.Proofs.Counter.Slots

/-! # Pipelines as sequences

A pipeline works on copies of the entries that it touches and puts them into place at its end, or
not at all. It still comes to the same as its operations one by one, each in a pipeline of its own
at the same instant (`exec_sequential`): the first operation that fails is the same one, with the
same complaint, and if none fails the same entries are left.

The step is `exec_append`: a pipeline may be cut in two anywhere. The second part then finds in the
store what it would have found among the copies. The state between the parts holds the copies of the
first part, and all of them are live (`AllLive`), so nothing that the first part has staged looks
expired to the second one. `Resumes` says how the copies of the second part lie over them. -/

namespace PaperIndex.Counter

namespace Memory

/-- **Two states hold the same**: every key has the same entry in both, live or not. -/
def SameEntries (m m' : Memory) : Prop := ∀ key, m'.entries.find? key = m.entries.find? key

/-- **Two outcomes agree**: the same result, and the same entries after a success. -/
structure Agree (r r' : Except StoreError Unit × Memory) : Prop where
  result : r'.1 = r.1
  entries : r.1 = .ok () → SameEntries r.2 r'.2

/-- Goes on from an outcome, unless it is a failure. -/
def andThen (r : Except StoreError Unit × Memory)
    (next : Memory → Except StoreError Unit × Memory) : Except StoreError Unit × Memory :=
  match r.1 with
  | .ok () => next r.2
  | .error e => (.error e, r.2)

/-- Applies operations one by one, each in a pipeline of its own, up to the first that fails. -/
def execEach (now : Int) : List Op → Memory → Except StoreError Unit × Memory
  | [], m => (.ok (), m)
  | op :: ops, m => andThen (exec ⟨now, [op]⟩ m) (execEach now ops)

/-! ### Outcomes -/

section Outcomes
variable {r r' r'' : Except StoreError Unit × Memory}

theorem Agree.refl (r : Except StoreError Unit × Memory) : Agree r r := ⟨rfl, fun _ _ => rfl⟩

theorem Agree.trans (h : Agree r r') (h' : Agree r' r'') : Agree r r'' where
  result := h'.result.trans h.result
  entries hok key := by
    have hok' : r'.1 = .ok () := h.result.trans hok
    exact (h'.entries hok' key).trans (h.entries hok key)

/-- Going on in ways that agree. -/
theorem agree_andThen {next next' : Memory → Except StoreError Unit × Memory}
    (h : ∀ m, Agree (next m) (next' m)) : Agree (andThen r next) (andThen r next') := by
  unfold andThen
  cases r.1 with
  | ok u => exact h r.2
  | error e => exact .refl _

end Outcomes

/-! ### Copies -/

/-- All copies are free slots or live at an instant. -/
def AllLive (now : Int) (staged : Staged) : Prop :=
  ∀ key slot, staged.find? key = some slot → LiveSlot now slot

/-- **Copies taken later** lie over the ones that were staged before, and give `all` with them. -/
def Resumes (staged later all : Staged) : Prop :=
  ∀ key, all.find? key = (later.find? key).or (staged.find? key)

section Copies
variable {m : Memory} {now : Int} {staged later all : Staged}

theorem allLive_empty (now : Int) : AllLive now .empty := by
  intro key slot hslot
  cases hslot

theorem liveSlot_slot (hlive : AllLive now staged) (key : String) :
    LiveSlot now (m.slot now staged key) := by
  unfold Memory.slot
  cases hfind : staged.find? key with
  | none => exact liveSlot_live? m now key
  | some slot => exact hlive key slot hfind

/-- Staging keeps all copies live. -/
theorem allLive_stage {ops : List Op} {staged' : Staged} (hlive : AllLive now staged)
    (h : m.stage now ops staged = .ok staged') : AllLive now staged' := by
  induction ops generalizing staged with
  | nil =>
    cases h
    exact hlive
  | cons op ops ih =>
    obtain ⟨slot, hop, hrest⟩ := stage_cons_eq_ok_iff.1 h
    refine ih (fun key slot' hfind => ?_) hrest
    rw [Table.find?_insert] at hfind
    split at hfind
    · cases hfind
      exact liveSlot_apply hop (liveSlot_slot hlive op.key)
    · exact hlive key slot' hfind

/-- A slot that is live at an instant is not filtered out there. -/
theorem filter_of_liveSlot {slot : Option Entry} (h : LiveSlot now slot) :
    (slot.filter fun e => isLive now e.expiry) = slot := by
  cases slot with
  | none => rfl
  | some e => rw [Option.filter_some, if_pos (h e rfl)]

/-- **What has been staged** is found in the store after it has been put into place. -/
theorem live?_commit (hlive : AllLive now staged) (key : String) :
    (m.commit staged).live? now key = m.slot now staged key := by
  unfold Memory.live? Memory.slot
  rw [find?_commit]
  cases hfind : staged.find? key with
  | none => rfl
  | some slot => exact filter_of_liveSlot (hlive key slot hfind)

theorem resumes_empty (staged : Staged) : Resumes staged .empty staged := fun _ => rfl

theorem resumes_insert (h : Resumes staged later all) (k : String) (slot : Option Entry) :
    Resumes staged (later.insert k slot) (all.insert k slot) := by
  intro key
  rw [Table.find?_insert, Table.find?_insert]
  split
  · rfl
  · exact h key

/-- Both ways of going on find the same slots. -/
theorem slot_of_resumes (hlive : AllLive now staged) (h : Resumes staged later all)
    (key : String) : (m.commit staged).slot now later key = m.slot now all key := by
  have hcommit := live?_commit (m := m) hlive key
  unfold Memory.slot at hcommit ⊢
  rw [h key]
  cases later.find? key with
  | none => exact hcommit
  | some slot => rfl

/-- **Going on** from the store or from the copies fails alike, or succeeds with copies that lie over
each other again. -/
theorem stage_of_resumes (hlive : AllLive now staged) (h : Resumes staged later all)
    (ops : List Op) :
    (∃ e, (m.commit staged).stage now ops later = .error e ∧ m.stage now ops all = .error e) ∨
      ∃ later' all', (m.commit staged).stage now ops later = .ok later' ∧
        m.stage now ops all = .ok all' ∧ Resumes staged later' all' := by
  induction ops generalizing later all with
  | nil => exact .inr ⟨later, all, rfl, rfl, h⟩
  | cons op ops ih =>
    rw [stage_cons, stage_cons, slot_of_resumes hlive h]
    cases op.apply now (m.slot now all op.key) with
    | error e => exact .inl ⟨e, rfl, rfl⟩
    | ok slot => exact ih (resumes_insert h op.key slot)

/-- The copies of both parts come into place in one go or in two. -/
theorem sameEntries_commit (h : Resumes staged later all) :
    SameEntries (m.commit all) ((m.commit staged).commit later) := by
  intro key
  rw [find?_commit, find?_commit, find?_commit, h key]
  cases later.find? key <;> rfl

end Copies

/-! ### Pipelines -/

theorem stage_append (m : Memory) (now : Int) (ops ops' : List Op) (staged : Staged) :
    m.stage now (ops ++ ops') staged = (m.stage now ops staged).bind (m.stage now ops') := by
  induction ops generalizing staged with
  | nil => rfl
  | cons op ops ih =>
    rw [List.cons_append, stage_cons, stage_cons]
    cases op.apply now (m.slot now staged op.key) with
    | error e => rfl
    | ok slot => exact ih (staged.insert op.key slot)

/-- **A pipeline may be cut in two** anywhere. -/
theorem exec_append (m : Memory) (now : Int) (ops ops' : List Op) :
    Agree (exec ⟨now, ops ++ ops'⟩ m) (andThen (exec ⟨now, ops⟩ m) (exec ⟨now, ops'⟩)) := by
  unfold exec
  simp only [stage_append]
  cases hfront : m.stage now ops .empty with
  | error e => exact ⟨rfl, nofun⟩
  | ok staged =>
    have hlive := allLive_stage (allLive_empty now) hfront
    obtain ⟨e, hlater, hall⟩ | ⟨later, all, hlater, hall, hresumes⟩ :=
      stage_of_resumes (m := m) hlive (resumes_empty staged) ops'
    · simp only [Except.bind, andThen, hlater, hall]
      exact ⟨rfl, nofun⟩
    · simp only [Except.bind, andThen, hlater, hall]
      exact ⟨rfl, fun _ => sameEntries_commit hresumes⟩

theorem exec_each (m : Memory) (now : Int) (ops : List Op) :
    Agree (exec ⟨now, ops⟩ m) (execEach now ops m) := by
  induction ops generalizing m with
  | nil => exact .refl _
  | cons op ops ih => exact (exec_append m now [op] ops).trans (agree_andThen ih)

/-- **A pipeline is an atomic sequence.** In every state it agrees with its operations one by one at
the same instant, each in a pipeline of its own. If one of them fails, the whole pipeline leaves the
state as it was. A pipeline of two parts agrees with the parts one after the other. -/
theorem exec_sequential (m : Memory) (now : Int) (ops : List Op) :
    Agree (exec ⟨now, ops⟩ m) (execEach now ops m) ∧
      ((exec ⟨now, ops⟩ m).1 ≠ .ok () → (exec ⟨now, ops⟩ m).2 = m) ∧
      ∀ ops', Agree (exec ⟨now, ops ++ ops'⟩ m)
        (andThen (exec ⟨now, ops⟩ m) (exec ⟨now, ops'⟩)) := by
  refine ⟨exec_each m now ops, fun hfails => ?_, exec_append m now ops⟩
  cases hresult : (exec ⟨now, ops⟩ m).1 with
  | ok u => exact absurd hresult hfails
  | error e => exact exec_snd_of_error hresult

end Memory

end PaperIndex.Counter
