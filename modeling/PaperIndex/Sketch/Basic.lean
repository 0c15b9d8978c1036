import PaperIndex.Sketch.Register
import PaperIndex.Sketch.Estimate

/-! # Sketches

A sketch stands for a set of hashes. It keeps the set itself, in ascending order, while the set has
at most 1024 members, and for every register the greatest rank of a hash of that register. The count
is exact as long as the set is kept. -/

namespace PaperIndex

/-- The registers of a sketch, and the hashes themselves while there are few. -/
structure Sketch where
  registers : Vector Nat Sketch.registerCount
  exact : Option (List UInt64)
deriving DecidableEq

namespace Sketch

/-- How many hashes are kept. -/
def exactLimit : Nat := 1024

/-- The sketch of the empty set. -/
def empty : Sketch := ⟨Vector.replicate registerCount 0, some []⟩

instance : Inhabited Sketch := ⟨empty⟩

/-- Puts a hash at its place in an ascending list, unless it is there. -/
def insertHash (h : UInt64) : List UInt64 → List UInt64
  | [] => [h]
  | x :: xs => if h = x then x :: xs else if h < x then h :: x :: xs else x :: insertHash h xs

/-- Keeps a list of hashes unless there are too many. -/
def keepFew (hs : List UInt64) : Option (List UInt64) :=
  if hs.length ≤ exactLimit then some hs else none

/-- Raises a register to a rank. -/
def raise (registers : Vector Nat registerCount) (i r : Nat) : Vector Nat registerCount :=
  if h : i < registerCount then
    if registers[i] < r then registers.set i r h else registers
  else registers

/-- The sketch with one more hash. -/
def addHash (s : Sketch) (h : UInt64) : Sketch :=
  ⟨raise s.registers (indexOf h) (rankOf h), s.exact.bind fun hs => keepFew (insertHash h hs)⟩

/-- Whether adding a hash changes the sketch. -/
def changesWith (s : Sketch) (h : UInt64) : Bool :=
  (match s.exact with
    | some hs => !hs.contains h
    | none => false) || s.registers.toArray.getD (indexOf h) 0 < rankOf h

/-- The sketch with one more member. -/
def add (s : Sketch) (member : String) : Sketch := s.addHash (hashOf member)

/-- The sketch of the union. -/
def merge (s t : Sketch) : Sketch where
  registers := Vector.zipWith max s.registers t.registers
  exact :=
    match s.exact, t.exact with
    | some hs, some hs' => keepFew (hs'.foldl (fun hs h => insertHash h hs) hs)
    | _, _ => none

/-- Whether the count is exact. -/
def isExact (s : Sketch) : Bool := s.exact.isSome

/-- The number of members, estimated from the registers once the hashes are no longer kept. -/
def count (s : Sketch) : Nat :=
  match s.exact with
  | some hs => hs.length
  | none => estimate s.registers.toList

/-! ### Kept hashes -/

theorem mem_insertHash {h x : UInt64} {hs : List UInt64} :
    x ∈ insertHash h hs ↔ x = h ∨ x ∈ hs := by
  induction hs with
  | nil => simp [insertHash]
  | cons y ys ih =>
    rw [insertHash]
    split
    · next hy => subst hy; simp
    · split
      · simp
      · rw [List.mem_cons, ih, List.mem_cons]
        exact or_left_comm

theorem pairwise_insertHash {h : UInt64} {hs : List UInt64} (hp : hs.Pairwise (· < ·)) :
    (insertHash h hs).Pairwise (· < ·) := by
  induction hs with
  | nil => simp [insertHash]
  | cons y ys ih =>
    rw [List.pairwise_cons] at hp
    rw [insertHash]
    split
    · exact List.pairwise_cons.2 hp
    · next hne =>
      split
      · next hlt =>
        refine List.pairwise_cons.2 ⟨?_, List.pairwise_cons.2 hp⟩
        intro z hz
        rcases List.mem_cons.1 hz with rfl | hz
        · exact hlt
        · exact UInt64.lt_trans hlt (hp.1 z hz)
      · next hge =>
        refine List.pairwise_cons.2 ⟨?_, ih hp.2⟩
        intro z hz
        rcases mem_insertHash.1 hz with rfl | hz
        · exact UInt64.lt_of_le_of_ne (UInt64.not_lt.1 hge) (Ne.symm hne)
        · exact hp.1 z hz

@[simp] theorem isExact_empty : empty.isExact = true := rfl

@[simp] theorem count_empty : empty.count = 0 := rfl

end Sketch

end PaperIndex
