import Mathlib.Algebra.Group.Nat.Defs
import Mathlib.Data.Nat.Size
import PaperIndex.Sketch.Estimate
import PaperIndex.Sketch.Register

/-! # The rank of a hash in numbers

A hash of 64 bits is a number below `2 ^ 64`. Its register is the quotient by `2 ^ 50`
(`indexOf_eq`), and its rank is read off the remainder: the rank and the length of the remainder in
binary make 51 (`rankOf_add_size`), so that a rank lies between 1 and 51.

The remainder stands at the front of the word that is searched, and a one bit follows it. Up to that
bit the word is twice the remainder and one, which is one bit longer than the remainder, even where
the remainder is zero (`size_marked`).

Ranks up to 51 shift a one within a word of 64 bits, so that the estimate adds up inverse powers of
two without a wrap (`Fit`). -/

namespace PaperIndex.Sketch

/-! ### Zeros in front of a word -/

theorem log2_add_one {n : Nat} (h : n ≠ 0) : n.log2 + 1 = n.size :=
  Nat.le_antisymm (Nat.lt_size.2 (Nat.log2_self_le h)) (Nat.size_le.2 Nat.lt_log2_self)

/-- The zeros in front of a word and its length in binary make 64. -/
theorem leadingZeros_add_size (w : UInt64) : leadingZeros w + w.toNat.size = 64 := by
  unfold leadingZeros
  by_cases hw : w = 0
  · rw [if_pos hw, hw]
    rfl
  · have hne : w.toNat ≠ 0 := fun h => hw (UInt64.toNat_inj.1 h)
    have hle : w.toNat.size ≤ 64 := Nat.size_le.2 w.toNat_lt
    have hlog := log2_add_one hne
    rw [if_neg hw]
    omega

/-! ### The word that is searched -/

/-- The remainder at the front of the word, with a one bit behind it. -/
theorem toNat_marked (h : UInt64) :
    ((h <<< 14) ||| 0x2000).toNat = (Nat.bit true (h.toNat % 2 ^ 50)) <<< 13 := by
  have hshift : (h <<< 14).toNat = (h.toNat % 2 ^ 50) <<< 14 := by
    have := UInt64.toNat_shiftLeft h 14
    simp only [Nat.shiftLeft_eq] at this ⊢
    change _ = h.toNat * 2 ^ 14 % 2 ^ 64 at this
    omega
  have hmark : (0x2000 : UInt64).toNat = 2 ^ 13 := rfl
  have hlt : 2 ^ 13 < 2 ^ 14 := by decide
  calc ((h <<< 14) ||| 0x2000).toNat
      = (h.toNat % 2 ^ 50) <<< 14 ||| 2 ^ 13 := by rw [UInt64.toNat_or, hshift, hmark]
    _ = (h.toNat % 2 ^ 50) <<< 14 + 2 ^ 13 := (Nat.shiftLeft_add_eq_or_of_lt hlt _).symm
    _ = (Nat.bit true (h.toNat % 2 ^ 50)) <<< 13 := by
      rw [Nat.shiftLeft_eq, Nat.shiftLeft_eq, Nat.bit_val, Bool.toNat_true]
      omega

theorem size_marked (n : Nat) : ((Nat.bit true n) <<< 13).size = n.size + 14 := by
  have hne : Nat.bit true n ≠ 0 := by
    rw [Nat.bit_val]
    exact Nat.succ_ne_zero _
  rw [Nat.size_shiftLeft hne, Nat.size_bit hne]

/-! ### The rank -/

/-- **The rank of a hash** and the length of its last 50 bits in binary make 51. -/
theorem rankOf_add_size (h : UInt64) : rankOf h + (h.toNat % 2 ^ 50).size = 51 := by
  have hword := leadingZeros_add_size ((h <<< 14) ||| 0x2000)
  rw [toNat_marked, size_marked] at hword
  have hrank : rankOf h = leadingZeros ((h <<< 14) ||| 0x2000) + 1 := rfl
  omega

theorem rankOf_le (h : UInt64) : rankOf h ≤ 51 := by
  have := rankOf_add_size h
  omega

/-- The extreme hashes select the extreme registers, and their ranks are the extreme ones. -/
example : (indexOf 0, rankOf 0) = (0, 51) ∧
    (indexOf 0xffffffffffffffff, rankOf 0xffffffffffffffff) = (16383, 1) := by decide +kernel

/-! ### Powers of two -/

theorem toNat_powerWord (rank : Nat) : (powerWord rank).toNat = 2 ^ (rank % 64) := by
  have hrank : rank.toUInt64.toNat % 64 = rank % 64 := by
    rw [Nat.toUInt64_eq, UInt64.toNat_ofNat']
    omega
  have hlt : 2 ^ (rank % 64) < 2 ^ 64 :=
    Nat.pow_lt_pow_right (by decide) (Nat.mod_lt rank (by decide))
  rw [powerWord, UInt64.toNat_shiftLeft, hrank, UInt64.toNat_one, Nat.one_shiftLeft,
    Nat.mod_eq_of_lt hlt]

/-- **Ranks fit the estimate**: none is beyond 51, and no power of two is shifted out of a word. -/
def Fit (ranks : List Nat) : Prop := ∀ rank ∈ ranks, rank ≤ 51 ∧ (powerWord rank).toNat = 2 ^ rank

theorem fit_of_le {ranks : List Nat} (h : ∀ rank ∈ ranks, rank ≤ 51) : Fit ranks := by
  intro rank hrank
  have hle := h rank hrank
  refine ⟨hle, ?_⟩
  rw [toNat_powerWord, Nat.mod_eq_of_lt (by omega)]

end PaperIndex.Sketch
