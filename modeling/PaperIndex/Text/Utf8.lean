/-! # Bytes as text

Bytes are read as UTF-8. `decode` answers with their text or with the place of the first bytes that
are none; `decodeLossy` puts the replacement character for each such run of bytes. -/

namespace PaperIndex.Text.Utf8

/-- Where bytes are no text: how many come before, and how many are at fault, which is open if there
are only too few of them. -/
structure Fault where
  index : Nat
  length : Option Nat
deriving DecidableEq, Repr

/-- The wording of a fault. -/
def Fault.message (f : Fault) : String :=
  match f.length with
  | some n => "invalid utf-8 sequence of " ++ toString n ++ " bytes from index " ++ toString f.index
  | none => "incomplete utf-8 byte sequence from index " ++ toString f.index

/-- A character of which some bytes are still to come. -/
structure Pending where
  /-- How many bytes are to come after the next one. -/
  after : Nat
  /-- The least value of the next byte. -/
  low : Nat
  /-- The greatest value of the next byte. -/
  high : Nat
  /-- The bits of the code point so far. -/
  bits : Nat
  /-- The number of bytes so far. -/
  taken : Nat

/-- The character that a first byte announces: the bounds on the second byte leave out longer forms
than necessary, surrogates and whatever is beyond the last code point. -/
def announced? (b : Nat) : Option Pending :=
  if 0xC2 ≤ b ∧ b ≤ 0xDF then some ⟨0, 0x80, 0xBF, b - 0xC0, 1⟩
  else if b = 0xE0 then some ⟨1, 0xA0, 0xBF, 0, 1⟩
  else if b = 0xED then some ⟨1, 0x80, 0x9F, 0xD, 1⟩
  else if 0xE1 ≤ b ∧ b ≤ 0xEF then some ⟨1, 0x80, 0xBF, b - 0xE0, 1⟩
  else if b = 0xF0 then some ⟨2, 0x90, 0xBF, 0, 1⟩
  else if 0xF1 ≤ b ∧ b ≤ 0xF3 then some ⟨2, 0x80, 0xBF, b - 0xF0, 1⟩
  else if b = 0xF4 then some ⟨2, 0x80, 0x8F, 4, 1⟩
  else none

/-- A character, or the number of bytes that are none, which is open at the end. -/
abbrev Piece := Except (Option Nat) Char

/-- What a byte between characters is by itself, and the character that it announces. -/
def start (b : Nat) : List Piece × Option Pending :=
  if b < 0x80 then ([.ok (Char.ofNat b)], none)
  else match announced? b with
    | some p => ([], some p)
    | none => ([.error (some 1)], none)

/-- What a byte within a character completes, and the character that goes on. A byte that does not
fit starts anew. -/
def Pending.take (p : Pending) (b : Nat) : List Piece × Option Pending :=
  if p.low ≤ b ∧ b ≤ p.high then
    let bits := p.bits * 64 + (b - 0x80)
    match p.after with
    | 0 => ([.ok (Char.ofNat bits)], none)
    | after + 1 => ([], some ⟨after, 0x80, 0xBF, bits, p.taken + 1⟩)
  else
    let (pieces, next) := start b
    (.error (some p.taken) :: pieces, next)

/-- The pieces of bytes after those of a pending character. -/
def piecesFrom (pending : Option Pending) : List UInt8 → List Piece
  | [] => if pending.isSome then [.error none] else []
  | b :: bs =>
    let (pieces, next) := match pending with
      | some p => p.take b.toNat
      | none => start b.toNat
    pieces ++ piecesFrom next bs

/-- The characters of pieces that begin at an index. -/
def charsFrom (index : Nat) : List Piece → Except Fault (List Char)
  | [] => .ok []
  | .ok c :: ps => do
    let cs ← charsFrom (index + c.utf8Size) ps
    return c :: cs
  | .error n :: _ => .error ⟨index, n⟩

/-- The text of bytes. -/
def decode (bs : List UInt8) : Except Fault String :=
  (charsFrom 0 (piecesFrom none bs)).map String.ofList

/-- The text of bytes, with the replacement character for what is none. -/
def decodeLossy (bs : List UInt8) : String :=
  String.ofList ((piecesFrom none bs).map fun p => p.toOption.getD '\ufffd')

end PaperIndex.Text.Utf8
