import PaperIndex.Json.Decode

/-! # Choices among names

A text that chooses one of several names gives the name as a string, or as the key of an object with
the single value `null`. What stands in the place of `null` is not read to its end before it is
refused. -/

namespace PaperIndex.Json

/-- The problem of a text that should go on with a character. -/
def missingMark {α : Type} : List Char → Decoded α
  | [] => .error (.text .unfinished)
  | _ => .error (.text .malformed)

/-- What follows a given character, blanks aside. -/
def passMark (mark : Char) (cs : List Char) : Decoded (List Char) :=
  match skipSpaces cs with
  | c :: rest => if c = mark then .ok rest else missingMark (c :: rest)
  | [] => missingMark []

/-- Reads one of the names, which is a string. -/
def readName (names : List String) (cs : List Char) : Decoded (String × List Char) :=
  match skipSpaces cs with
  | '"' :: rest =>
    match readString .start rest with
    | .value k rest =>
      if k ∈ names then .ok (k, rest) else .error (.data (.unknownVariant k names))
    | .valueless _ => .error (.text .malformed)
    | .broken asked _ => .error (.text asked)
  | cs => missingMark cs

/-- Reads `null`. A container in its place is refused at once. -/
def readNull (cs : List Char) : Decoded (List Char) :=
  match skipSpaces cs with
  | '[' :: _ => .error (.data (.wrongType .sequence "unit"))
  | '\x7b' :: _ => .error (.data (.wrongType .map "unit"))
  | cs =>
    match readValue 1 (4 * cs.length + 4) cs with
    | (.null, some rest) => .ok rest
    | (d, _) => d.unexpected "unit"

/-- Reads a choice from a text that holds nothing else. -/
def decodeChoice (names : List String) (s : String) : Decoded String := do
  let (k, rest) ← match skipSpaces s.toList with
    | '\x7b' :: rest => do
      let (k, rest) ← readName names rest
      let rest ← passMark ':' rest
      let rest ← readNull rest
      let rest ← passMark '\x7d' rest
      pure (k, rest)
    | cs => readName names cs
  if (skipSpaces rest).isEmpty then return k else .error (.text .malformed)

end PaperIndex.Json
