/-! # Rounding

Numbers are rounded to the nearest of those that can be had, and of two equally near ones to the
even one. -/

namespace PaperIndex.Rounding

/-- The whole number nearest to a quotient. -/
def quotient (n d : Nat) : Nat :=
  let twice := 2 * (n % d)
  if twice < d ∨ (twice = d ∧ n / d % 2 = 0) then n / d else n / d + 1

/-- The unit of the last of the 53 digits that a double keeps of a natural number. -/
def unit (n : Nat) : Nat := Nat.pow 2 (n.log2 - 52)

/-- The double nearest to a natural number, as if there were no greatest double. -/
def double (n : Nat) : Nat := quotient n (unit n) * unit n

/-- The double nearest to an integer. -/
def signedDouble (n : Int) : Int := n.sign * double n.natAbs

end PaperIndex.Rounding
