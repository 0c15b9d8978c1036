import PaperIndex.Counter.Memory
import PaperIndex.Proofs.Fallible

/-! # Pipelines in memory, key by key

A pipeline stages all its operations in one table, but what it does to a key depends only on its
operations on that key (`opsOn`) and on the entry that the key has at the instant of the pipeline:

* `exec_eq_ok_iff`: a pipeline succeeds exactly when the operations of each key do, in turn;
* `live?_exec`: and then the slot they leave is the live entry of the key;
* `find?_exec_of_not_mem`: a key that no operation names keeps its entry, whether live or not. -/

namespace PaperIndex.Counter

/-- The operations on a key. -/
def opsOn (key : String) (ops : List Op) : List Op := ops.filter fun op => op.key = key

/-- The slot of a key after operations in turn at an instant. -/
def applyAll (now : Int) : List Op → Option Entry → Except StoreError (Option Entry)
  | [], slot => .ok slot
  | op :: ops, slot => do
    let slot ← op.apply now slot
    applyAll now ops slot

/-- The value in a slot, or the one that a free slot starts with. -/
def valueOr (v : Value) (slot : Option Entry) : Value := slot.elim v Entry.value

/-- The expiry of the entry in a slot. -/
def expiryOf (slot : Option Entry) : Option Int := slot.bind Entry.expiry

/-- The kind of the values that a question is about. -/
def Query.kind : Query → CounterKind
  | .tally _ => .tally
  | .count _ => .sketch
  | .within _ _ _ => .scores

/-- A slot is free or holds an entry that is live at an instant. -/
def LiveSlot (now : Int) (slot : Option Entry) : Prop :=
  ∀ e, slot = some e → isLive now e.expiry = true

/-! ### One operation -/

theorem apply_add_eq_ok_iff {now : Int} {key : String} {delta : Int} {slot slot' : Option Entry} :
    (Op.add key delta).apply now slot = .ok slot' ↔
      ∃ n, valueOr (.tally 0) slot = .tally n ∧ fits (n + delta) = true ∧
        slot' = some ⟨.tally (n + delta), expiryOf slot⟩ := by
  rcases slot with _ | ⟨v, x⟩
  · by_cases hf : fits delta = true <;>
      simp [Op.apply, valueOr, expiryOf, hf, eq_comm (a := slot')]
  · cases v with
    | tally n =>
      by_cases hf : fits (n + delta) = true <;>
        simp [Op.apply, valueOr, expiryOf, hf, eq_comm (a := slot')]
    | sketch s => simp [Op.apply, valueOr, Entry.mistaken]
    | scores t => simp [Op.apply, valueOr, Entry.mistaken]

theorem apply_observe_eq_ok_iff {now : Int} {key member : String} {slot slot' : Option Entry} :
    (Op.observe key member).apply now slot = .ok slot' ↔
      ∃ s, valueOr (.sketch .empty) slot = .sketch s ∧
        slot' = some ⟨.sketch (s.add member), expiryOf slot⟩ := by
  rcases slot with _ | ⟨v, x⟩
  · simp [Op.apply, valueOr, expiryOf, eq_comm (a := slot')]
  · cases v <;> simp [Op.apply, valueOr, expiryOf, Entry.mistaken, eq_comm (a := slot')]

theorem apply_place_eq_ok_iff {now : Int} {key member : String} {score : Int}
    {slot slot' : Option Entry} :
    (Op.place key member score).apply now slot = .ok slot' ↔
      ∃ t, valueOr (.scores .empty) slot = .scores t ∧
        slot' = some ⟨.scores (t.insert member score), expiryOf slot⟩ := by
  rcases slot with _ | ⟨v, x⟩
  · simp [Op.apply, valueOr, expiryOf, eq_comm (a := slot')]
  · cases v <;> simp [Op.apply, valueOr, expiryOf, Entry.mistaken, eq_comm (a := slot')]

theorem apply_trim_eq_ok_iff {now : Int} {key : String} {bound : Int} {slot slot' : Option Entry} :
    (Op.trim key bound).apply now slot = .ok slot' ↔
      (slot = none ∧ slot' = none) ∨ ∃ t x, slot = some ⟨.scores t, x⟩ ∧
        slot' = if (t.filter fun _ score => bound < score).rows.isEmpty then none
          else some ⟨.scores (t.filter fun _ score => bound < score), x⟩ := by
  rcases slot with _ | ⟨v, x⟩
  · simp [Op.apply, eq_comm (a := slot')]
  · cases v with
    | scores t =>
      constructor
      · intro h
        exact .inr ⟨t, x, rfl, (Except.ok.inj h).symm⟩
      · rintro (⟨h, -⟩ | ⟨t, x, h, rfl⟩)
        · cases h
        · cases h
          rfl
    | tally n => simp [Op.apply, Entry.mistaken]
    | sketch s => simp [Op.apply, Entry.mistaken]

theorem apply_expire (now : Int) (key : String) (instant : Int) (slot : Option Entry) :
    (Op.expire key instant).apply now slot =
      .ok (if instant ≤ now then none
        else slot.map fun e => { e with expiry := some instant }) := by
  simp only [Op.apply]
  split <;> rfl

/-! ### Operations in turn -/

theorem opsOn_cons (key : String) (op : Op) (ops : List Op) :
    opsOn key (op :: ops) = if op.key = key then op :: opsOn key ops else opsOn key ops := by
  simp [opsOn, List.filter_cons]

theorem opsOn_append (key : String) (ops ops' : List Op) :
    opsOn key (ops ++ ops') = opsOn key ops ++ opsOn key ops' := List.filter_append ..

theorem opsOn_eq_nil_iff {key : String} {ops : List Op} :
    opsOn key ops = [] ↔ key ∉ ops.map Op.key := by
  unfold opsOn
  simp [List.filter_eq_nil_iff]

@[simp] theorem applyAll_nil (now : Int) (slot : Option Entry) : applyAll now [] slot = .ok slot :=
  rfl

theorem applyAll_cons (now : Int) (op : Op) (ops : List Op) (slot : Option Entry) :
    applyAll now (op :: ops) slot = (op.apply now slot).bind (applyAll now ops) := rfl

theorem applyAll_cons_eq_ok_iff {now : Int} {op : Op} {ops : List Op}
    {slot slot' : Option Entry} :
    applyAll now (op :: ops) slot = .ok slot' ↔
      ∃ slot₁, op.apply now slot = .ok slot₁ ∧ applyAll now ops slot₁ = .ok slot' := by
  rw [applyAll_cons]
  cases op.apply now slot with
  | error e => exact iff_of_false (fun h => nomatch h) fun ⟨_, h, _⟩ => nomatch h
  | ok slot₁ => exact ⟨fun h => ⟨slot₁, rfl, h⟩, fun ⟨_, h, h'⟩ => Except.ok.inj h ▸ h'⟩

theorem applyAll_singleton (now : Int) (op : Op) (slot : Option Entry) :
    applyAll now [op] slot = op.apply now slot := by
  rw [applyAll_cons]
  cases op.apply now slot <;> rfl

theorem applyAll_append (now : Int) (ops ops' : List Op) (slot : Option Entry) :
    applyAll now (ops ++ ops') slot = (applyAll now ops slot).bind (applyAll now ops') := by
  induction ops generalizing slot with
  | nil => rfl
  | cons op ops ih =>
    rw [List.cons_append, applyAll_cons, applyAll_cons]
    cases op.apply now slot with
    | error e => rfl
    | ok slot => exact ih slot

theorem applyAll_append_eq_ok_iff {now : Int} {ops ops' : List Op} {slot slot' : Option Entry} :
    applyAll now (ops ++ ops') slot = .ok slot' ↔
      ∃ slot₁, applyAll now ops slot = .ok slot₁ ∧ applyAll now ops' slot₁ = .ok slot' := by
  rw [applyAll_append]
  cases applyAll now ops slot with
  | error e => exact iff_of_false (fun h => nomatch h) fun ⟨_, h, _⟩ => nomatch h
  | ok slot₁ => exact ⟨fun h => ⟨slot₁, rfl, h⟩, fun ⟨_, h, h'⟩ => Except.ok.inj h ▸ h'⟩

theorem isLive_expiryOf {now : Int} {slot : Option Entry} (hl : LiveSlot now slot) :
    isLive now (expiryOf slot) = true := by
  cases slot with
  | none => rfl
  | some e => exact hl e rfl

theorem liveSlot_apply {now : Int} {op : Op} {slot slot' : Option Entry}
    (h : op.apply now slot = .ok slot') (hl : LiveSlot now slot) : LiveSlot now slot' := by
  intro e' he'
  subst he'
  cases op with
  | add key delta =>
    obtain ⟨n, -, -, hs⟩ := apply_add_eq_ok_iff.1 h
    cases hs
    exact isLive_expiryOf hl
  | observe key member =>
    obtain ⟨s, -, hs⟩ := apply_observe_eq_ok_iff.1 h
    cases hs
    exact isLive_expiryOf hl
  | place key member score =>
    obtain ⟨t, -, hs⟩ := apply_place_eq_ok_iff.1 h
    cases hs
    exact isLive_expiryOf hl
  | trim key bound =>
    rcases apply_trim_eq_ok_iff.1 h with ⟨-, hs⟩ | ⟨t, x, rfl, hs⟩
    · cases hs
    · split at hs
      · cases hs
      · cases hs
        have hx := hl ⟨.scores t, x⟩ rfl
        exact hx
  | expire key instant =>
    rw [apply_expire, Except.ok.injEq] at h
    split at h
    · cases h
    · next hnow =>
      obtain ⟨e, -, rfl⟩ := Option.map_eq_some_iff.1 h
      simpa [isLive] using hnow

theorem liveSlot_applyAll {now : Int} {ops : List Op} {slot slot' : Option Entry}
    (h : applyAll now ops slot = .ok slot') (hl : LiveSlot now slot) : LiveSlot now slot' := by
  induction ops generalizing slot with
  | nil => cases h; exact hl
  | cons op ops ih =>
    rw [applyAll_cons] at h
    cases hop : op.apply now slot with
    | error e => rw [hop] at h; cases h
    | ok slot₁ =>
      rw [hop] at h
      exact ih h (liveSlot_apply hop hl)

namespace Memory

/-! ### Staging -/

theorem liveSlot_live? (m : Memory) (now : Int) (key : String) :
    LiveSlot now (m.live? now key) := by
  intro e he
  exact (Option.filter_eq_some_iff.1 he).2

theorem live?_congr {m m' : Memory} {key : String}
    (h : m'.entries.find? key = m.entries.find? key) (now : Int) :
    m'.live? now key = m.live? now key := by
  rw [live?, live?, h]

theorem slot_insert (m : Memory) (now : Int) (staged : Staged) (k key : String)
    (slot : Option Entry) :
    m.slot now (staged.insert k slot) key = if key = k then slot else m.slot now staged key := by
  unfold Memory.slot
  rw [Table.find?_insert]
  split <;> rfl

@[simp] theorem slot_empty (m : Memory) (now : Int) (key : String) :
    m.slot now .empty key = m.live? now key := rfl

theorem stage_cons (m : Memory) (now : Int) (op : Op) (ops : List Op) (staged : Staged) :
    m.stage now (op :: ops) staged =
      (op.apply now (m.slot now staged op.key)).bind fun slot =>
        m.stage now ops (staged.insert op.key slot) := rfl

theorem stage_cons_eq_ok_iff {m : Memory} {now : Int} {op : Op} {ops : List Op}
    {staged staged' : Staged} :
    m.stage now (op :: ops) staged = .ok staged' ↔
      ∃ slot, op.apply now (m.slot now staged op.key) = .ok slot ∧
        m.stage now ops (staged.insert op.key slot) = .ok staged' := by
  rw [stage_cons]
  cases op.apply now (m.slot now staged op.key) with
  | error e => exact iff_of_false (fun h => nomatch h) fun ⟨_, h, _⟩ => nomatch h
  | ok slot => exact ⟨fun h => ⟨slot, rfl, h⟩, fun ⟨_, h, h'⟩ => Except.ok.inj h ▸ h'⟩

/-- Staging succeeds exactly when the operations of each key do, in turn. -/
theorem stage_eq_ok_iff {m : Memory} {now : Int} {ops : List Op} {staged : Staged} :
    (∃ staged', m.stage now ops staged = .ok staged') ↔
      ∀ key, ∃ slot, applyAll now (opsOn key ops) (m.slot now staged key) = .ok slot := by
  induction ops generalizing staged with
  | nil => exact ⟨fun _ key => ⟨_, rfl⟩, fun _ => ⟨staged, rfl⟩⟩
  | cons op ops ih =>
    rw [stage_cons]
    cases hop : op.apply now (m.slot now staged op.key) with
    | error e =>
      refine iff_of_false (by rintro ⟨_, h⟩; cases h) fun h => ?_
      obtain ⟨slot, hslot⟩ := h op.key
      rw [opsOn_cons, if_pos rfl, applyAll_cons, hop] at hslot
      cases hslot
    | ok slot =>
      refine ih.trans (forall_congr' fun key => ?_)
      rw [slot_insert, opsOn_cons]
      by_cases hkey : key = op.key
      · subst hkey
        rw [if_pos rfl, if_pos rfl, applyAll_cons, hop]
        rfl
      · rw [if_neg hkey, if_neg (Ne.symm hkey)]

/-- What is staged for a key is the outcome of its operations. -/
theorem applyAll_of_stage {m : Memory} {now : Int} {ops : List Op} {staged staged' : Staged}
    (h : m.stage now ops staged = .ok staged') (key : String) :
    applyAll now (opsOn key ops) (m.slot now staged key) = .ok (m.slot now staged' key) := by
  induction ops generalizing staged with
  | nil => cases h; rfl
  | cons op ops ih =>
    obtain ⟨slot, hop, hrest⟩ := stage_cons_eq_ok_iff.1 h
    have hslot := ih hrest
    rw [slot_insert] at hslot
    rw [opsOn_cons]
    by_cases hkey : key = op.key
    · subst hkey
      rw [if_pos rfl, applyAll_cons, hop]
      rwa [if_pos rfl] at hslot
    · rw [if_neg (Ne.symm hkey)]
      rwa [if_neg hkey] at hslot

/-- The keys that are staged are those that the operations name. -/
theorem find?_stage_eq_none_iff {m : Memory} {now : Int} {ops : List Op} {staged staged' : Staged}
    (h : m.stage now ops staged = .ok staged') (key : String) :
    staged'.find? key = none ↔ staged.find? key = none ∧ key ∉ ops.map Op.key := by
  induction ops generalizing staged with
  | nil => cases h; simp
  | cons op ops ih =>
    obtain ⟨slot, -, hrest⟩ := stage_cons_eq_ok_iff.1 h
    rw [ih hrest, Table.find?_insert]
    by_cases hkey : key = op.key
    · simp [hkey]
    · simp [hkey]

/-! ### Committing -/

theorem find?_commitSlot (entries : Table String Entry) (r : String × Option Entry)
    (key : String) :
    (commitSlot entries r).find? key = if key = r.1 then r.2 else entries.find? key := by
  unfold commitSlot
  cases hr : r.2 with
  | none => exact Table.find?_erase ..
  | some e => exact Table.find?_insert ..

theorem find?_commit (m : Memory) (staged : Staged) (key : String) :
    (m.commit staged).entries.find? key = (staged.find? key).getD (m.entries.find? key) := by
  obtain ⟨rows, nodup⟩ := staged
  unfold commit Table.find?
  -- The rows are put into place from the first to the last; the keys of the rest differ.
  suffices ∀ entries : Table String Entry, (rows.foldl commitSlot entries).find? key =
      (rows.lookup key).getD (entries.find? key) from this _
  induction rows with
  | nil => intro entries; rfl
  | cons r rows ih =>
    intro entries
    rw [List.map_cons, List.nodup_cons] at nodup
    rw [List.foldl_cons, ih nodup.2, find?_commitSlot, List.lookup_cons]
    by_cases hkey : key = r.1
    · have hnone : rows.lookup key = none := by
        refine List.lookup_eq_none_iff.2 fun r' hr' => bne_iff_ne.2 fun he => nodup.1 ?_
        rw [← hkey, he]
        exact List.mem_map_of_mem hr'
      rw [hnone, if_pos hkey, beq_iff_eq.2 hkey]
      rfl
    · rw [if_neg hkey, beq_eq_false_iff_ne.2 hkey]

/-! ### Pipelines -/

theorem exec_eq_ok_iff {p : Pipeline} {m : Memory} :
    (exec p m).1 = .ok () ↔
      ∀ key, ∃ slot, applyAll p.now (opsOn key p.ops) (m.live? p.now key) = .ok slot := by
  refine Iff.trans ?_ (@stage_eq_ok_iff m p.now p.ops .empty)
  unfold exec
  cases m.stage p.now p.ops .empty with
  | ok staged => simp
  | error e => simp

/-- **A key that no operation names** keeps its entry. -/
theorem find?_exec_of_not_mem (p : Pipeline) (m : Memory) {key : String}
    (h : key ∉ p.ops.map Op.key) : (exec p m).2.entries.find? key = m.entries.find? key := by
  unfold exec
  cases hs : m.stage p.now p.ops .empty with
  | error e => rfl
  | ok staged =>
    have : staged.find? key = none := (find?_stage_eq_none_iff hs key).2 ⟨rfl, h⟩
    exact (find?_commit m staged key).trans (by rw [this]; rfl)

/-- **A key that an operation names** has the entry that its operations leave. -/
theorem find?_exec_of_mem {p : Pipeline} {m : Memory} (hok : (exec p m).1 = .ok ()) {key : String}
    (h : key ∈ p.ops.map Op.key) :
    applyAll p.now (opsOn key p.ops) (m.live? p.now key) =
      .ok ((exec p m).2.entries.find? key) := by
  unfold exec at hok ⊢
  cases hs : m.stage p.now p.ops .empty with
  | error e => rw [hs] at hok; cases hok
  | ok staged =>
    have happ := applyAll_of_stage hs key
    have hsome : staged.find? key ≠ none := fun hn =>
      ((find?_stage_eq_none_iff hs key).1 hn).2 h
    obtain ⟨slot, hslot⟩ := Option.ne_none_iff_exists'.1 hsome
    rw [slot_empty, Memory.slot, hslot] at happ
    rw [happ]
    exact congrArg _ ((find?_commit m staged key).trans (by rw [hslot]; rfl)).symm

/-- **The live entry of a key** after a pipeline is what its operations make of the one before. -/
theorem live?_exec {p : Pipeline} {m : Memory} (hok : (exec p m).1 = .ok ()) (key : String) :
    applyAll p.now (opsOn key p.ops) (m.live? p.now key) =
      .ok ((exec p m).2.live? p.now key) := by
  by_cases h : key ∈ p.ops.map Op.key
  · have happ := find?_exec_of_mem hok h
    have hlive := liveSlot_applyAll happ (liveSlot_live? m p.now key)
    rw [happ, live?]
    cases hf : (exec p m).2.entries.find? key with
    | none => rfl
    | some e => rw [Option.filter_some, if_pos (hlive e hf)]
  · rw [opsOn_eq_nil_iff.2 h, applyAll_nil]
    exact congrArg _ (live?_congr (find?_exec_of_not_mem p m h) p.now).symm

/-! ### Reads -/

/-- A read succeeds exactly when every question has an answer. -/
theorem read_eq_ok_iff {m : Memory} {now : Int} {qs : List Query} {ns : List Int} :
    read qs now m = .ok ns ↔ List.Forall₂ (fun q n => m.answer now q = .ok n) qs ns :=
  mapM_eq_ok_iff

/-- A read fails as a whole when one of its questions has no answer. -/
theorem exists_read_iff {m : Memory} {now : Int} {qs : List Query} :
    (∃ ns, read qs now m = .ok ns) ↔ ∀ q ∈ qs, ∃ n, m.answer now q = .ok n :=
  exists_mapM_iff

/-- A question about a live entry of another kind has no answer. -/
theorem kind_eq_of_answer {m : Memory} {now : Int} {q : Query} {n : Int} {e : Entry}
    (h : m.answer now q = .ok n) (he : m.live? now q.key = some e) : e.value.kind = q.kind := by
  unfold answer at h
  rw [he] at h
  obtain ⟨v, x⟩ := e
  cases q <;> cases v <;> first | rfl | cases h

/-- **A question has an answer** exactly when the live entry under its key, if there is one, is of
its kind. -/
theorem exists_answer_iff {m : Memory} {now : Int} {q : Query} :
    (∃ n, m.answer now q = .ok n) ↔
      ∀ e, m.live? now q.key = some e → e.value.kind = q.kind := by
  constructor
  · rintro ⟨n, hn⟩ e he
    exact kind_eq_of_answer hn he
  · intro h
    unfold answer
    cases he : m.live? now q.key with
    | none => exact ⟨0, rfl⟩
    | some e =>
      have hkind := h e he
      obtain ⟨v, x⟩ := e
      cases q <;> cases v <;> first | exact ⟨_, rfl⟩ | cases hkind

theorem answer_congr {m m' : Memory} {now : Int} {q : Query}
    (h : m'.entries.find? q.key = m.entries.find? q.key) : m'.answer now q = m.answer now q := by
  unfold answer
  rw [live?_congr h]

theorem read_congr {m m' : Memory} {now : Int} {qs : List Query}
    (h : ∀ q ∈ qs, m'.entries.find? q.key = m.entries.find? q.key) :
    read qs now m' = read qs now m := by
  unfold read
  induction qs with
  | nil => rfl
  | cons q qs ih =>
    rw [List.forall_mem_cons] at h
    rw [List.mapM_cons, List.mapM_cons, answer_congr h.1, ih h.2]

end Memory

end PaperIndex.Counter
