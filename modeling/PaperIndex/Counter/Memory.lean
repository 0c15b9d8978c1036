import PaperIndex.Counter.Basic
import PaperIndex.Sketch.Basic
import PaperIndex.Table
import PaperIndex.Text.Pieces

/-! # The counter store in memory

One table from keys to entries. An expired entry stays in the table and counts as absent. A pipeline
works on copies of the entries it touches; they replace the entries only after its last operation
has succeeded. -/

namespace PaperIndex.Counter

/-- What a key holds. -/
inductive Value
  | tally (n : Int)
  | sketch (s : Sketch)
  | scores (t : Table String Int)
deriving DecidableEq

/-- The kind of a value. -/
def Value.kind : Value → CounterKind
  | .tally _ => .tally
  | .sketch _ => .sketch
  | .scores _ => .scores

/-- A value and its expiry. -/
structure Entry where
  value : Value
  expiry : Option Int
deriving DecidableEq

/-- The complaint about an entry of another kind. -/
def Entry.mistaken {α : Type} (key : String) (e : Entry) (wanted : CounterKind) :
    Except StoreError α :=
  .error (.wrongKind key e.value.kind wanted)

/-- The entry of a key after one operation at an instant. -/
def Op.apply (now : Int) : Op → Option Entry → Except StoreError (Option Entry)
  | .add key delta, slot =>
    let e := slot.getD ⟨.tally 0, none⟩
    match e.value with
    | .tally n =>
      if fits (n + delta) then .ok (some { e with value := .tally (n + delta) })
      else .error (.overflow key)
    | _ => e.mistaken key .tally
  | .observe key member, slot =>
    let e := slot.getD ⟨.sketch .empty, none⟩
    match e.value with
    | .sketch s => .ok (some { e with value := .sketch (s.add member) })
    | _ => e.mistaken key .sketch
  | .place key member score, slot =>
    let e := slot.getD ⟨.scores .empty, none⟩
    match e.value with
    | .scores t => .ok (some { e with value := .scores (t.insert member score) })
    | _ => e.mistaken key .scores
  | .trim key bound, slot =>
    match slot with
    | none => .ok none
    | some e =>
      match e.value with
      | .scores t =>
        let t := t.filter fun _ score => bound < score
        .ok (if t.rows.isEmpty then none else some { e with value := .scores t })
      | _ => e.mistaken key .scores
  | .expire _ instant, slot =>
    if instant ≤ now then .ok none
    else .ok (slot.map fun e => { e with expiry := some instant })

/-- The state of the store. -/
structure Memory where
  entries : Table String Entry

namespace Memory

/-- The store without entries. -/
def empty : Memory := ⟨.empty⟩

instance : Inhabited Memory := ⟨empty⟩

/-- The entry of a key that is live at an instant. -/
def live? (m : Memory) (now : Int) (key : String) : Option Entry :=
  (m.entries.find? key).filter fun e => isLive now e.expiry

/-- The entries that a pipeline has touched; `none` stands for an entry that is to be removed. -/
abbrev Staged := Table String (Option Entry)

/-- The slot of a key as the next operation of a pipeline finds it. -/
def slot (m : Memory) (now : Int) (staged : Staged) (key : String) : Option Entry :=
  (staged.find? key).getD (m.live? now key)

/-- Applies operations in turn to copies of the entries. -/
def stage (m : Memory) (now : Int) : List Op → Staged → Except StoreError Staged
  | [], staged => .ok staged
  | op :: ops, staged => do
    let slot ← op.apply now (m.slot now staged op.key)
    m.stage now ops (staged.insert op.key slot)

/-- Puts one touched entry into its place. -/
def commitSlot (entries : Table String Entry) (r : String × Option Entry) :
    Table String Entry :=
  match r.2 with
  | some e => entries.insert r.1 e
  | none => entries.erase r.1

/-- Puts the touched entries into their places. -/
def commit (m : Memory) (staged : Staged) : Memory := ⟨staged.rows.foldl commitSlot m.entries⟩

/-- Applies a pipeline. -/
def exec (p : Pipeline) (m : Memory) : Except StoreError Unit × Memory :=
  match m.stage p.now p.ops .empty with
  | .ok staged => (.ok (), m.commit staged)
  | .error e => (.error e, m)

/-- Answers a question at an instant. -/
def answer (m : Memory) (now : Int) (q : Query) : Except StoreError Int :=
  match m.live? now q.key with
  | none => .ok 0
  | some e =>
    match q, e.value with
    | .tally _, .tally n => .ok n
    | .count _, .sketch s => .ok (Word.signed 64 s.count)
    | .within _ low high, .scores t =>
      .ok (t.rows.countP fun r => low ≤ r.2 && r.2 ≤ high)
    | .tally key, _ => e.mistaken key .tally
    | .count key, _ => e.mistaken key .sketch
    | .within key _ _, _ => e.mistaken key .scores

/-- Answers questions at an instant, in order. -/
def read (qs : List Query) (now : Int) (m : Memory) : Except StoreError (List Int) :=
  qs.mapM (m.answer now)

/-- The live keys with a lead, ascending. -/
def scan (lead : String) (now : Int) (m : Memory) : Except StoreError (List String) :=
  let found := m.entries.rows.filter fun r => Text.hasLead lead r.1 && isLive now r.2.expiry
  .ok (sortKeys (found.map Prod.fst))

/-- The store in memory. -/
def store : Store Memory where
  exec := exec
  read := read
  scan := scan

/-! ### Pipelines -/

/-- **A pipeline that fails** leaves the store as it was. -/
theorem exec_snd_of_error {p : Pipeline} {m : Memory} {e : StoreError}
    (h : (exec p m).1 = .error e) : (exec p m).2 = m := by
  unfold exec at h ⊢
  split <;> simp_all

@[simp] theorem exec_nil (now : Int) (m : Memory) : exec ⟨now, []⟩ m = (.ok (), m) := rfl

end Memory

end PaperIndex.Counter
