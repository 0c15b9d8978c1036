import PaperIndex.Sketch.Digest
import PaperIndex.Word

/-! # Registers of a sketch

A hash of 64 bits selects one of 16384 registers by its first 14 bits; its rank there is the place
of the first one among the other 50 bits, counted from one, and 51 if there is none. -/

namespace PaperIndex.Sketch

/-- How many bits of a hash select the register. -/
def precision : Nat := 14

/-- The number of registers. -/
def registerCount : Nat := Word.count precision

/-- The number of zero bits in front of the first one bit of a word of 64 bits. -/
def leadingZeros (w : UInt64) : Nat := if w = 0 then 64 else 63 - w.toNat.log2

/-- The register that a hash selects. -/
def indexOf (h : UInt64) : Nat := (h >>> UInt64.ofNat (64 - precision)).toNat

/-- The rank of a hash. A one bit behind the remaining bits bounds it by 51. -/
def rankOf (h : UInt64) : Nat :=
  let mark : UInt64 := 1 <<< UInt64.ofNat (precision - 1)
  leadingZeros ((h <<< UInt64.ofNat precision) ||| mark) + 1

theorem indexOf_eq (h : UInt64) : indexOf h = h.toNat / Word.count 50 := by
  simp [indexOf, precision, Word.count, Nat.shiftRight_eq_div_pow]

theorem indexOf_lt (h : UInt64) : indexOf h < registerCount := by
  have := h.toNat_lt
  rw [indexOf_eq, registerCount, precision, Word.count, Word.count]
  exact Nat.div_lt_of_lt_mul this

end PaperIndex.Sketch
