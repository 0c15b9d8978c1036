import PaperIndex.Text.Unpictured

/-! # Quoted texts

The form in which a text is shown inside a message: between double quotes, with the quote and the
backslash escaped, the usual short escapes for the controls that have one, and the code point in
braces for every other character without a picture. -/

namespace PaperIndex.Text

/-- The lower-case hexadecimal digits of a number. -/
def hexText (n : Nat) : String := String.ofList (Nat.toDigits 16 n)

/-- One character as it stands between the quotes. -/
def quotedChar (c : Char) : String :=
  if c = '"' then "\\\""
  else if c = '\\' then "\\\\"
  else if c = '\n' then "\\n"
  else if c = '\r' then "\\r"
  else if c = '\t' then "\\t"
  else if c = '\x00' then "\\0"
  else if isUnpictured c then "\\u\x7b" ++ hexText c.toNat ++ "\x7d"
  else c.toString

/-- The text between double quotes. -/
def quoted (s : String) : String :=
  "\"" ++ String.join (s.toList.map quotedChar) ++ "\""

end PaperIndex.Text
