import PaperIndex.Counter.Basic
import PaperIndex.Rounding

/-! # The cells of tallies

The tallies of the relational store are added up by the database, in a column of integers. A sum
beyond the integers of 64 bits is not refused: it is formed anew as a sum of doubles, and it stays a
double in its cell unless it lies between the ends of these integers. The store cannot read a tally
from a double. -/

namespace PaperIndex.Counter

/-- What the cell of a tally holds. A double beyond the integers of 64 bits is a whole number. -/
inductive Cell
  | integer (n : Int)
  | real (x : Int)
deriving DecidableEq, Repr

namespace Cell

/-- The cell in which a double is put. -/
def ofDouble (x : Int) : Cell :=
  if -Word.count 63 < x ∧ x < Word.greatest 63 then .integer x else .real x

/-- The cell after a number is added. -/
def plus : Cell → Int → Cell
  | .integer n, d =>
    if fits (n + d) then .integer (n + d)
    else ofDouble (Rounding.signedDouble (Rounding.signedDouble n + Rounding.signedDouble d))
  | .real x, d => ofDouble (Rounding.signedDouble (x + Rounding.signedDouble d))

/-- The cell after a number is added, if there has been one. -/
def added (old : Option Cell) (d : Int) : Cell :=
  match old with
  | some cell => cell.plus d
  | none => .integer d

/-- The tally that is read from a cell. -/
def read : Cell → Except StoreError Int
  | .integer n => .ok n
  | .real _ => .error .notInteger

end Cell

end PaperIndex.Counter
