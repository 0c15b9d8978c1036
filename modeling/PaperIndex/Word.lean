/-! # Words

The integers that fit into a number of bits, without or with a sign. -/

namespace PaperIndex.Word

/-- The number of words of so many bits. -/
def count (bits : Nat) : Nat := Nat.pow 2 bits

/-- The greatest word without a sign. -/
def greatest (bits : Nat) : Nat := count bits - 1

/-- Whether an integer is a word without a sign. -/
def isUnsigned (bits : Nat) (n : Int) : Bool := 0 ≤ n && n < count bits

/-- Whether an integer is a word with a sign. -/
def isSigned (bits : Nat) (n : Int) : Bool := -count (bits - 1) ≤ n && n < count (bits - 1)

/-- The word with a sign that has the same bits as an integer. -/
def signed (bits : Nat) (n : Int) : Int := n.bmod (count bits)

theorem isSigned_iff {bits : Nat} {n : Int} :
    isSigned bits n = true ↔ -count (bits - 1) ≤ n ∧ n < count (bits - 1) := by
  rw [isSigned, Bool.and_eq_true, decide_eq_true_eq, decide_eq_true_eq]

/-- A word with a sign stands for itself. -/
theorem signed_eq_self {bits : Nat} (hbits : 0 < bits) {n : Int} (h : isSigned bits n = true) :
    signed bits n = n := by
  have hhalf : count bits = 2 * count (bits - 1) := by
    obtain ⟨b, rfl⟩ := Nat.exists_eq_succ_of_ne_zero (Nat.ne_of_gt hbits)
    exact Nat.pow_succ'
  rw [isSigned_iff] at h
  exact Int.bmod_eq_of_le (by omega) (by omega)

end PaperIndex.Word
