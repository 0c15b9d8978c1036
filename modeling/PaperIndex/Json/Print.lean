import PaperIndex.Json.Basic
import PaperIndex.Text.Quoted

/-! # Writing JSON

The compact form has no blanks; the indented form puts every item and field on a line of its own,
two blanks deeper than its container. Both escape the quote, the backslash and the control
characters and leave all other characters as they are. -/

namespace PaperIndex.Json

/-- One character of a string as it is written. -/
def escapeChar (c : Char) : List Char :=
  if c = '"' then ['\\', '"']
  else if c = '\\' then ['\\', '\\']
  else if c = '\x08' then ['\\', 'b']
  else if c = '\x0c' then ['\\', 'f']
  else if c = '\n' then ['\\', 'n']
  else if c = '\r' then ['\\', 'r']
  else if c = '\t' then ['\\', 't']
  else if c.toNat < 0x20 then
    ['\\', 'u', '0', '0', Nat.digitChar (c.toNat / 16), Nat.digitChar (c.toNat % 16)]
  else [c]

/-- The string between quotes, character by character. -/
def stringChars (s : String) : List Char := '"' :: s.toList.flatMap escapeChar ++ ['"']

/-- The text of a number. -/
def Number.chars : Number → List Char
  | .integer n => (toString n).toList
  | .double bits => (doubleText bits).toList

mutual

/-- The compact form. -/
def chars : Json → List Char
  | .null => "null".toList
  | .bool true => "true".toList
  | .bool false => "false".toList
  | .number n => n.chars
  | .string s => stringChars s
  | .array [] => ['[', ']']
  | .array (j :: js) => '[' :: chars j ++ itemsChars js
  | .object [] => ['\x7b', '\x7d']
  | .object ((k, j) :: fs) => '\x7b' :: stringChars k ++ ':' :: chars j ++ fieldsChars fs

/-- The further items of an array and its end. -/
def itemsChars : List Json → List Char
  | [] => [']']
  | j :: js => ',' :: chars j ++ itemsChars js

/-- The further fields of an object and its end. -/
def fieldsChars : List (String × Json) → List Char
  | [] => ['\x7d']
  | (k, j) :: fs => ',' :: stringChars k ++ ':' :: chars j ++ fieldsChars fs

end

/-- The compact text. -/
def compact (j : Json) : String := String.ofList (chars j)

/-- The start of a line at a depth. -/
def newLine (depth : Nat) : List Char := '\n' :: List.replicate (2 * depth) ' '

mutual

/-- The indented form of a value inside `depth` containers. -/
def indentedChars (depth : Nat) : Json → List Char
  | .array (j :: js) =>
    '[' :: newLine (depth + 1) ++ indentedChars (depth + 1) j ++ indentedItems depth js
  | .object ((k, j) :: fs) =>
    '\x7b' :: newLine (depth + 1) ++ stringChars k ++ ':' :: ' ' :: indentedChars (depth + 1) j ++
      indentedFields depth fs
  | .null => "null".toList
  | .bool true => "true".toList
  | .bool false => "false".toList
  | .number n => n.chars
  | .string s => stringChars s
  | .array [] => ['[', ']']
  | .object [] => ['\x7b', '\x7d']

/-- The further items of an indented array and its end. -/
def indentedItems (depth : Nat) : List Json → List Char
  | [] => newLine depth ++ [']']
  | j :: js => ',' :: newLine (depth + 1) ++ indentedChars (depth + 1) j ++ indentedItems depth js

/-- The further fields of an indented object and its end. -/
def indentedFields (depth : Nat) : List (String × Json) → List Char
  | [] => newLine depth ++ ['\x7d']
  | (k, j) :: fs =>
    ',' :: newLine (depth + 1) ++ stringChars k ++ ':' :: ' ' :: indentedChars (depth + 1) j ++
      indentedFields depth fs

end

/-- The indented text. -/
def indented (j : Json) : String := String.ofList (indentedChars 0 j)

end PaperIndex.Json
