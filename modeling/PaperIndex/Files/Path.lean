import PaperIndex.Text.Pieces

/-! # Paths

A path names the steps from a directory to a file or to another directory. The step `..` leads to
the directory around; a step that leads nowhere else is left out. -/

namespace PaperIndex.Files

/-- The steps from a directory, or from the root. -/
structure Path where
  isAbsolute : Bool
  steps : List String
  /-- The path can only name a directory. -/
  namesDirectory : Bool
deriving DecidableEq, Repr

namespace Path

/-- The step to the directory around. -/
def outward : String := ".."

/-- Whether a step leads anywhere. -/
def isStep (s : String) : Bool := s != "" && s != "."

/-- The path that a text is. -/
def ofText (s : String) : Path :=
  let parts := (Text.pieces '/' s.toList).map String.ofList
  let last := (parts.getLast?).getD ""
  { isAbsolute := Text.hasLead "/" s
    steps := parts.filter isStep
    namesDirectory := !isStep last || last = outward }

end Path

/-- The number of bytes that a name may have. -/
def maxName : Nat := 255

/-- Whether a text holds the null character. -/
def hasNull (s : String) : Bool := s.toList.contains '\x00'

end PaperIndex.Files
