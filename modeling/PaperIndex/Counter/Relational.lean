import PaperIndex.Counter.Cell
import PaperIndex.Sketch.Basic
import PaperIndex.Table
import PaperIndex.Text.Pieces

/-! # The relational counter store

Five relations: the live keys with their expiries, the tallies, the registers of sketches, the
hashes that sketches keep, and the scored members of sets. The values of a key are wherever rows
with the key are, so one key may hold a value of each kind. A pipeline first deletes every key that
has expired. -/

namespace PaperIndex.Counter

/-- The primary key of a register. -/
structure RegisterKey where
  key : String
  index : Nat
deriving DecidableEq, Repr

/-- The primary key of a hash. -/
structure HashKey where
  key : String
  hash : UInt64
deriving DecidableEq, Repr

/-- The primary key of a scored member. -/
structure MemberKey where
  key : String
  member : String
deriving DecidableEq, Repr

/-- The relations of the store, each under its primary key. -/
structure Relational where
  /-- Every key with its expiry. -/
  keys : Table String (Option Int)
  tallies : Table String Cell
  /-- The rank of a register of a sketch; a register without a row has the rank 0. -/
  registers : Table RegisterKey Nat
  /-- The hashes of a sketch while it is small, and one more. -/
  hashes : Table HashKey Unit
  scores : Table MemberKey Int
deriving DecidableEq

namespace Relational

/-- The store without rows. -/
def empty : Relational := ⟨.empty, .empty, .empty, .empty, .empty⟩

instance : Inhabited Relational := ⟨empty⟩

/-- Whether a key has expired at an instant. -/
def hasExpired (r : Relational) (now : Int) (key : String) : Bool :=
  ((r.keys.find? key).join).any (· ≤ now)

/-- Deletes the rows of all keys that pass a test. -/
def deleteWhere (r : Relational) (gone : String → Bool) : Relational where
  keys := r.keys.filter fun k _ => !gone k
  tallies := r.tallies.filter fun k _ => !gone k
  registers := r.registers.filter fun k _ => !gone k.key
  hashes := r.hashes.filter fun k _ => !gone k.key
  scores := r.scores.filter fun k _ => !gone k.key

/-- Deletes every key that has expired at an instant. -/
def purge (r : Relational) (now : Int) : Relational :=
  let expired := (r.keys.rows.filter fun row => row.2.any (· ≤ now)).map Prod.fst
  if expired.isEmpty then r else r.deleteWhere fun k => expired.contains k

/-- Inserts a key without expiry, unless it is there. -/
def touch (r : Relational) (key : String) : Relational :=
  if r.keys.contains key then r else { r with keys := r.keys.insert key none }

/-- The number of hashes that a key has. -/
def hashCount (r : Relational) (key : String) : Nat :=
  r.hashes.rows.countP fun row => row.1.key == key

/-- Inserts a hash while the key has at most as many as a small sketch keeps. -/
def keepHash (r : Relational) (key : String) (h : UInt64) : Relational :=
  if r.hashCount key ≤ Sketch.exactLimit ∧ r.hashes.contains ⟨key, h⟩ = false then
    { r with hashes := r.hashes.insert ⟨key, h⟩ () }
  else r

/-- Raises a register of a key to a rank. -/
def raise (r : Relational) (key : String) (i rank : Nat) : Relational :=
  let rank := match r.registers.find? ⟨key, i⟩ with
    | some old => max old rank
    | none => rank
  { r with registers := r.registers.insert ⟨key, i⟩ rank }

/-- Whether no row but hashes and the key's own is left for a key. -/
def isBare (r : Relational) (key : String) : Bool :=
  !(r.scores.rows.any fun row => row.1.key == key) && !r.tallies.contains key &&
    !(r.registers.rows.any fun row => row.1.key == key)

/-- The relations after one operation at an instant. -/
def apply (r : Relational) (now : Int) : Op → Relational
  | .add key delta =>
    let r := r.touch key
    { r with tallies := r.tallies.insert key (.added (r.tallies.find? key) delta) }
  | .observe key member =>
    let h := Sketch.hashOf member
    ((r.touch key).keepHash key h).raise key (Sketch.indexOf h) (Sketch.rankOf h)
  | .place key member score =>
    let r := r.touch key
    { r with scores := r.scores.insert ⟨key, member⟩ score }
  | .trim key bound =>
    let r := { r with scores := r.scores.filter fun k s => !(s ≤ bound && k.key == key) }
    if r.isBare key then { r with keys := r.keys.erase key } else r
  | .expire key instant =>
    if instant ≤ now then r.deleteWhere (· == key)
    else { r with keys := r.keys.modify key fun _ => some instant }

/-- Applies a pipeline; an empty one does nothing at all. -/
def exec (p : Pipeline) (r : Relational) : Except StoreError Unit × Relational :=
  if p.ops.isEmpty then (.ok (), r)
  else (.ok (), p.ops.foldl (fun r op => r.apply p.now op) (r.purge p.now))

/-- Whether a key is there and live at an instant. -/
def isLiveKey (r : Relational) (now : Int) (key : String) : Bool :=
  (r.keys.find? key).any fun expiry => isLive now expiry

/-- A rank as it is read: the greatest byte if it is beyond a byte. -/
def readRank (rank : Nat) : Nat := min rank (Word.greatest 8)

/-- Reads the row of a register into its place, if there is one. -/
def fill (v : Array Nat) (row : RegisterKey × Nat) : Array Nat :=
  v.setIfInBounds row.1.index (readRank row.2)

/-- The ranks of all registers of a key, in register order. -/
def ranks (r : Relational) (key : String) : List Nat :=
  let rows := r.registers.rows.filter fun row => row.1.key == key
  (rows.foldl fill (Array.replicate Sketch.registerCount 0)).toList

/-- Answers a question at an instant. -/
def answer (r : Relational) (now : Int) : Query → Except StoreError Int
  | .tally key =>
    if r.isLiveKey now key then ((r.tallies.find? key).map Cell.read).getD (.ok 0) else .ok 0
  | .count key =>
    let kept := if r.isLiveKey now key then r.hashCount key else 0
    if kept ≤ Sketch.exactLimit then .ok kept
    else .ok (Word.signed 64 (Sketch.estimate (r.ranks key)))
  | .within key low high =>
    if r.isLiveKey now key then
      .ok (r.scores.rows.countP fun row => row.1.key == key && low ≤ row.2 && row.2 ≤ high)
    else .ok 0

/-- Answers questions at an instant, in order. -/
def read (qs : List Query) (now : Int) (r : Relational) : Except StoreError (List Int) :=
  qs.mapM (r.answer now)

/-- Whether a key has a lead. Comparing stops at a null character, so a lead with one is never
found. -/
def hasLead (lead key : String) : Bool := Text.hasLead lead key && !lead.toList.contains '\x00'

/-- The live keys with a lead, ascending. -/
def scan (lead : String) (now : Int) (r : Relational) : Except StoreError (List String) :=
  let found := r.keys.rows.filter fun row => hasLead lead row.1 && isLive now row.2
  .ok (sortKeys (found.map Prod.fst))

/-- The relational store. -/
def store : Store Relational where
  exec := exec
  read := read
  scan := scan

@[simp] theorem exec_nil (now : Int) (r : Relational) : exec ⟨now, []⟩ r = (.ok (), r) := rfl

end Relational

end PaperIndex.Counter
