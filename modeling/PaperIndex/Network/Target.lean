import PaperIndex.Network.Http
import PaperIndex.Text.Pieces

/-! # Targets of requests

The path and the query of a request as they are sent. The pairs of a query are form-encoded: a space
becomes a plus, and whatever is no letter, digit, `*`, `-`, `.` or `_` becomes its bytes in
hexadecimal. -/

namespace PaperIndex.Http

/-- A hexadecimal digit. -/
def hexDigit (n : Nat) : Char := (Nat.digitChar n).toUpper

/-- A byte as it stands in a URL. -/
def escapeByte (b : UInt8) : List Char :=
  ['%', hexDigit (b.toNat / 16), hexDigit (b.toNat % 16)]

/-- The bytes of a character as they stand in a URL. -/
def escape (c : Char) : List Char := c.toString.toUTF8.toList.flatMap escapeByte

/-- Whether a character stands for itself in a form. -/
def isPlain (c : Char) : Bool := c.isAlphanum || c == '*' || c == '-' || c == '.' || c == '_'

/-- A character in a form. -/
def formChar (c : Char) : List Char :=
  if isPlain c then [c] else if c = ' ' then ['+'] else escape c

/-- A text in a form. -/
def formText (s : String) : String := String.ofList (s.toList.flatMap formChar)

/-- The pairs of a form. -/
def form (pairs : List (String × String)) : String :=
  String.intercalate "&" (pairs.map fun p => formText p.1 ++ "=" ++ formText p.2)

/-- Whether a character stands for itself in a path. -/
def isPathChar (c : Char) : Bool :=
  0x20 < c.toNat && c.toNat < 0x7F && !(['"', '<', '>', '\x60', '\x7b', '\x7d'].contains c)

/-- The path of a URL on a given host. -/
def pathOn? (host url : String) : Option String := do
  let rest ← (Text.after? ("http://" ++ host) url).map String.toList
  let path := rest.takeWhile fun c => c != '?' && c != '#'
  match path with
  | [] => some "/"
  | '/' :: _ =>
    some (String.ofList (path.flatMap fun c => if isPathChar c then [c] else escape c))
  | _ => none

/-- The target of a request with a path. -/
def Request.target (r : Request) (path : String) : String :=
  if r.query.isEmpty then path else path ++ "?" ++ form r.query

end PaperIndex.Http
