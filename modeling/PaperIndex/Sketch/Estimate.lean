/-! # Estimating a cardinality

The estimate from dense registers: a bias-corrected harmonic mean, and linear counting while the
mean is small and some registers are empty. The arithmetic is that of doubles, in register order. -/

namespace PaperIndex.Sketch

/-- One, shifted by a rank in a word of 64 bits: `2 ^ (rank mod 64)`. -/
def powerWord (rank : Nat) : UInt64 := (1 : UInt64) <<< rank.toUInt64

/-- The power of two of a rank, as a double. -/
def powerOf (rank : Nat) : Float := (powerWord rank).toFloat

/-- The sum of the inverse powers of the ranks. -/
def harmonicSum (ranks : List Nat) : Float :=
  ranks.foldl (fun sum r => sum + 1.0 / powerOf r) 0.0

/-- The estimated number of members, from the ranks in register order. -/
def estimate (ranks : List Nat) : Nat :=
  if ranks.isEmpty then 0
  else
    let m := Float.ofNat ranks.length
    let alpha := 0.7213 / (1.0 + 1.079 / m)
    let zeros := ranks.count 0
    let raw := alpha * m * m / harmonicSum ranks
    let value :=
      if raw ≤ 2.5 * m && zeros != 0 then m * Float.log (m / Float.ofNat zeros) else raw
    value.round.toUInt64.toNat

end PaperIndex.Sketch
