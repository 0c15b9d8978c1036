import PaperIndex.Text.Pieces
import PaperIndex.Text.Utf8

/-! # Escaped bytes in addresses

In an address any byte may be written as a percent sign and two hexadecimal digits. A form is a list
of pairs of a name and a value in which also a plus stands for a space. -/

namespace PaperIndex.Text.Escaped

/-- The value of a hexadecimal digit. -/
def hexValue? (b : UInt8) : Option UInt8 :=
  if 0x30 ≤ b ∧ b ≤ 0x39 then some (b - 0x30)
  else if 0x41 ≤ b ∧ b ≤ 0x46 then some (b - 0x37)
  else if 0x61 ≤ b ∧ b ≤ 0x66 then some (b - 0x57)
  else none

/-- The byte that two hexadecimal digits denote. -/
def byte? (a b : UInt8) : Option UInt8 := do return 16 * (← hexValue? a) + (← hexValue? b)

/-- The bytes that are meant. A percent sign without two digits stands for itself. -/
def unescape : List UInt8 → List UInt8
  | [] => []
  | [b] => [b]
  | [a, b] => [a, b]
  | c :: a :: b :: rest =>
    if c = 0x25 then
      match byte? a b with
      | some v => v :: unescape rest
      | none => c :: unescape (a :: b :: rest)
    else c :: unescape (a :: b :: rest)

/-- The bytes that a text means. -/
def bytesOf (s : String) : List UInt8 := unescape s.toUTF8.toList

/-- One part of a pair. -/
def formPart (cs : List Char) : String :=
  Utf8.decodeLossy (bytesOf (String.ofList (cs.map fun c => if c = '+' then ' ' else c)))

/-- The pairs of a form. A pair without an equals sign has an empty value. -/
def formPairs (s : String) : List (String × String) :=
  ((pieces '&' s.toList).filter fun p => !p.isEmpty).map fun p =>
    (formPart (p.takeWhile (· != '=')), formPart ((p.dropWhile (· != '=')).drop 1))

end PaperIndex.Text.Escaped
