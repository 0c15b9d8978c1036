import PaperIndex.Error
import PaperIndex.Time.Calendar

/-! # Counter stores

A counter store keeps tallies, sketches and sets of scored members under keys that may expire.
Changes are collected in a pipeline, which is applied as a whole at one instant; reads are answered
together from one state. A key with an expiry is live before that instant only. -/

namespace PaperIndex.Counter

/-- One change of a store. -/
inductive Op
  /-- Adds to a tally. -/
  | add (key : String) (delta : Int)
  /-- Adds a member to a sketch. -/
  | observe (key member : String)
  /-- Gives a member of a set its score. -/
  | place (key member : String) (score : Int)
  /-- Removes the members of a set with a score up to a bound. -/
  | trim (key : String) (bound : Int)
  /-- Lets a key expire at an instant. -/
  | expire (key : String) (instant : Int)
deriving DecidableEq, Repr

/-- The key that an operation changes. -/
def Op.key : Op → String
  | .add key _ => key
  | .observe key _ => key
  | .place key _ _ => key
  | .trim key _ => key
  | .expire key _ => key

/-- One question to a store. Each has an integer as its answer, which is 0 for an absent key. -/
inductive Query
  /-- The value of a tally. -/
  | tally (key : String)
  /-- The count of a sketch. -/
  | count (key : String)
  /-- The number of members of a set with a score in a range. -/
  | within (key : String) (low high : Int)
deriving DecidableEq, Repr

/-- The key that a question is about. -/
def Query.key : Query → String
  | .tally key => key
  | .count key => key
  | .within key _ _ => key

/-- Changes to be applied together at an instant. -/
structure Pipeline where
  now : Int
  ops : List Op
deriving DecidableEq, Repr

/-- Whether a key with the given expiry is live at an instant. -/
def isLive (now : Int) (expiry : Option Int) : Bool := expiry.all (now < ·)

/-- The integers of 64 bits. -/
def fits (n : Int) : Bool := Word.isSigned 64 n

theorem fits_iff {n : Int} : fits n = true ↔ -Word.count 63 ≤ n ∧ n < Word.count 63 :=
  Word.isSigned_iff

theorem fits_natCast_iff {n : Nat} : fits n = true ↔ n < Word.count 63 := by
  rw [fits_iff, Int.ofNat_lt]
  exact and_iff_right (by omega)

/-- What a store with states `σ` can do. -/
structure Store (σ : Type) where
  /-- Applies a pipeline. -/
  exec : Pipeline → σ → Except StoreError Unit × σ
  /-- Answers questions at an instant, in order. -/
  read : List Query → Int → σ → Except StoreError (List Int)
  /-- The live keys with a lead, ascending. -/
  scan : String → Int → σ → Except StoreError (List String)

/-- A call of a counter store. -/
inductive Call
  | exec
  | read
  | scan
  /-- Answering all questions: without it the last answer of a read is lost. -/
  | lastAnswer
deriving DecidableEq, Repr

/-- The name of a call. -/
def Call.name : Call → String
  | .exec => "exec"
  | .read => "read"
  | .scan => "scan_keys"
  | .lastAnswer => "short_read"

/-- The store of which some calls have been made to fail. A failing call changes nothing. -/
def Store.failing {σ : Type} (calls : List Call) (s : Store σ) : Store σ where
  exec p st := if .exec ∈ calls then (.error (.down Call.exec.name), st) else s.exec p st
  read qs now st :=
    if .read ∈ calls then .error (.down Call.read.name)
    else if .lastAnswer ∈ calls then (s.read qs now st).map List.dropLast
    else s.read qs now st
  scan lead now st :=
    if .scan ∈ calls then .error (.down Call.scan.name) else s.scan lead now st

/-- The store that may only be read. A pipeline without changes is no harm. -/
def Store.readOnly {σ : Type} (s : Store σ) : Store σ :=
  { s with
    exec := fun p st => if p.ops.isEmpty then s.exec p st else (.error (.refused .readOnly), st) }

/-- Sorts keys. -/
def sortKeys (keys : List String) : List String := keys.mergeSort fun a b => a ≤ b

end PaperIndex.Counter
