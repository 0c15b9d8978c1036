import Mathlib.Data.Finset.Image
import Mathlib.Logic.Function.Basic
import PaperIndex.Proofs.Sketch.Canonical

/-! # Runs over several sketches

Members are added to sketches, and sketches are merged into one another, in any order. Which members
have reached a sketch is followed apart from the sketches themselves (`reached`); after a run every
sketch is that of the members which reached it (`run_eq_ofMembers`). The order and the repetition of
the steps are lost in the set, and merging is the union of the sets (`run_canonical`). -/

namespace PaperIndex.Sketch

/-! ### Sketches of sets -/

/-- **A sketch represents a set of hashes**: the set says what it holds, counts and reports. -/
structure Represents (s : Sketch) (S : Finset UInt64) : Prop where
  register : ∀ i (hi : i < registerCount),
    s.registers[i] = (S.filter fun h => indexOf h = i).sup rankOf
  exact : s.exact = if S.card ≤ exactLimit then some (S.sort (· ≤ ·)) else none
  count : s.count = if S.card ≤ exactLimit then S.card else estimate s.registers.toList
  /-- Adding a member is reported as a change exactly if it is one. -/
  changes : ∀ member, s.changesWith (hashOf member) = true ↔ s.add member ≠ s

theorem represents_ofSet (S : Finset UInt64) : (ofSet S).Represents S where
  register := registers_ofSet S
  exact := exact_ofSet S
  count := by
    unfold Sketch.count
    rw [exact_ofSet]
    split_ifs
    · exact Finset.length_sort _
    · rfl
  changes member := changesWith_ofSet S (hashOf member)

/-- A set is represented by its sketch and by no other. -/
theorem represents_iff (s : Sketch) (S : Finset UInt64) : s.Represents S ↔ s = ofSet S := by
  constructor
  · intro h
    obtain ⟨registers, exact⟩ := s
    obtain rfl : registers = (ofSet S).registers :=
      Vector.ext fun i hi => (h.register i hi).trans (registers_ofSet S i hi).symm
    obtain rfl : exact = (ofSet S).exact := h.exact.trans (exact_ofSet S).symm
    rfl
  · rintro rfl
    exact represents_ofSet S

/-- **The sketch of members.** -/
def ofMembers (members : Finset String) : Sketch := ofSet (members.image hashOf)

theorem empty_eq_ofMembers : empty = ofMembers ∅ := by
  rw [empty_eq_ofSet, ofMembers, Finset.image_empty]

theorem add_ofMembers (members : Finset String) (member : String) :
    (ofMembers members).add member = ofMembers (insert member members) := by
  rw [ofMembers, ofMembers, add, addHash_ofSet, Finset.image_insert]

theorem foldl_add_ofMembers (members : Finset String) (added : List String) :
    added.foldl add (ofMembers members) = ofMembers (members ∪ added.toFinset) := by
  induction added generalizing members with
  | nil => rw [List.foldl_nil, List.toFinset_nil, Finset.union_empty]
  | cons member added ih =>
    rw [List.foldl_cons, add_ofMembers, ih, List.toFinset_cons, Finset.insert_union,
      Finset.union_insert]

theorem merge_ofMembers (members members' : Finset String) :
    (ofMembers members).merge (ofMembers members') = ofMembers (members ∪ members') := by
  rw [ofMembers, ofMembers, ofMembers, merge_ofSet, Finset.image_union]

/-! ### Steps and runs -/

/-- A step on one of several sketches. -/
inductive Step (ι : Type) where
  | add (i : ι) (member : String)
  /-- Merges the second sketch, perhaps the same one, into the first. -/
  | merge (i j : ι)

variable {ι : Type} [DecidableEq ι]

/-- The sketches after a step. -/
def Step.apply (sketches : ι → Sketch) : Step ι → ι → Sketch
  | .add i member => Function.update sketches i ((sketches i).add member)
  | .merge i j => Function.update sketches i ((sketches i).merge (sketches j))

/-- The members that have reached each sketch after a step: a merge passes them on. -/
def Step.spread (members : ι → Finset String) : Step ι → ι → Finset String
  | .add i member => Function.update members i (insert member (members i))
  | .merge i j => Function.update members i (members i ∪ members j)

/-- The sketches after a run, all of them empty before it. -/
def run (steps : List (Step ι)) : ι → Sketch := steps.foldl Step.apply fun _ => empty

/-- **The members that reach each sketch** in a run. -/
def reached (steps : List (Step ι)) : ι → Finset String := steps.foldl Step.spread fun _ => ∅

/-- **A step** takes the sketches of members to those of the members that it spreads. -/
theorem apply_ofMembers (members : ι → Finset String) (step : Step ι) :
    step.apply (ofMembers ∘ members) = ofMembers ∘ step.spread members := by
  cases step with
  | add i member =>
    rw [Step.spread, Function.comp_update, ← add_ofMembers]
    rfl
  | merge i j =>
    rw [Step.spread, Function.comp_update, ← merge_ofMembers]
    rfl

theorem foldl_apply_ofMembers (members : ι → Finset String) (steps : List (Step ι)) :
    steps.foldl Step.apply (ofMembers ∘ members) =
      ofMembers ∘ steps.foldl Step.spread members := by
  induction steps generalizing members with
  | nil => rfl
  | cons step steps ih => rw [List.foldl_cons, List.foldl_cons, apply_ofMembers, ih]

/-- **After a run** every sketch is that of the members that have reached it. -/
theorem run_eq_ofMembers (steps : List (Step ι)) (i : ι) :
    run steps i = ofMembers (reached steps i) := by
  have hstart : (fun _ : ι => empty) = ofMembers ∘ fun _ => ∅ := funext fun _ => empty_eq_ofMembers
  rw [run, hstart, foldl_apply_ofMembers]
  rfl

/-- **Sketches are canonical.** After a run each of them is the one that represents the hashes of
the members that have reached it. Members added to it in any order, and as often as one likes, give
the sketch of the enlarged set; merging gives the sketch of the union, so that it is commutative,
associative and idempotent, and the empty sketch is neutral. -/
theorem run_canonical (steps : List (Step ι)) :
    (∀ i s, s.Represents ((reached steps i).image hashOf) ↔ s = run steps i) ∧
      (∀ i (added : List String),
        added.foldl add (run steps i) = ofMembers (reached steps i ∪ added.toFinset)) ∧
      (∀ i j, (run steps i).merge (run steps j) = ofMembers (reached steps i ∪ reached steps j) ∧
        (run steps i).merge (run steps j) = (run steps j).merge (run steps i)) ∧
      (∀ i j k, ((run steps i).merge (run steps j)).merge (run steps k) =
        (run steps i).merge ((run steps j).merge (run steps k))) ∧
      (∀ i, (run steps i).merge (run steps i) = run steps i ∧
        (run steps i).merge empty = run steps i ∧ empty.merge (run steps i) = run steps i) := by
  refine ⟨fun i s => ?_, fun i added => ?_, fun i j => ⟨?_, ?_⟩, fun i j k => ?_,
    fun i => ⟨?_, ?_, ?_⟩⟩ <;>
    simp only [run_eq_ofMembers, empty_eq_ofMembers, merge_ofMembers]
  · exact represents_iff s _
  · exact foldl_add_ofMembers _ added
  · rw [Finset.union_comm]
  · rw [Finset.union_assoc]
  · rw [Finset.union_self]
  · rw [Finset.union_empty]
  · rw [Finset.empty_union]

end PaperIndex.Sketch
