import PaperIndex.Toml.Basic
import PaperIndex.Word

/-! # The tokens of TOML

Keys, strings, numbers, dates and times. A reader takes what it reads from the front of the
characters and answers with the rest of them, or with nothing if there is no such token. -/

namespace PaperIndex.Toml

/-- Whether a character is a decimal digit. -/
def isDigit (c : Char) : Bool := '0' ≤ c && c ≤ '9'

/-- The value of a digit. -/
def digitValue (c : Char) : Nat :=
  if isDigit c then c.toNat - 48
  else if 'a' ≤ c ∧ c ≤ 'f' then c.toNat - 87
  else c.toNat - 55

/-- Whether a character is a digit in a base up to sixteen. -/
def isDigitIn (base : Nat) (c : Char) : Bool :=
  (isDigit c || ('a' ≤ c && c ≤ 'f') || ('A' ≤ c && c ≤ 'F')) && digitValue c < base

/-- The number that digits denote. -/
def numberIn (base : Nat) (ds : List Char) : Nat :=
  ds.foldl (fun n c => n * base + digitValue c) 0

/-- The characters after leading blanks. -/
def skipBlanks (cs : List Char) : List Char := cs.dropWhile fun c => c = ' ' || c = '\t'

/-- The characters after a line break. -/
def lineBreak? : List Char → Option (List Char)
  | '\n' :: rest => some rest
  | '\r' :: '\n' :: rest => some rest
  | _ => none

/-- Whether a character may stand in a comment or a string: all but control characters. -/
def isPrintable (c : Char) : Bool := c = '\t' || (0x20 ≤ c.toNat && c.toNat ≠ 0x7F)

/-- The characters after a comment, if there is one. -/
def skipComment : List Char → List Char
  | '#' :: rest => rest.dropWhile isPrintable
  | cs => cs

/-- The characters after the end of a line, which may hold blanks and a comment. -/
def lineEnd? (cs : List Char) : Option (List Char) :=
  match skipComment (skipBlanks cs) with
  | [] => some []
  | cs => lineBreak? cs

/-! ### Strings -/

/-- The character that so many hexadecimal digits denote, and what follows them. -/
def readScalar (width : Nat) (cs : List Char) : Option (Char × List Char) :=
  let ds := cs.take width
  let n := numberIn 16 ds
  if ds.length = width && ds.all (isDigitIn 16) && n.isValidChar then
    some (Char.ofNat n, cs.drop width)
  else none

/-- The character that is written after a backslash. -/
def readEscape : List Char → Option (Char × List Char)
  | 'b' :: rest => some ('\x08', rest)
  | 'f' :: rest => some ('\x0c', rest)
  | 'n' :: rest => some ('\n', rest)
  | 'r' :: rest => some ('\r', rest)
  | 't' :: rest => some ('\t', rest)
  | '"' :: rest => some ('"', rest)
  | '\\' :: rest => some ('\\', rest)
  | 'u' :: rest => readScalar 4 rest
  | 'U' :: rest => readScalar 8 rest
  | _ => none

/-- The characters after blanks and line breaks. -/
def skipLines : Nat → List Char → List Char
  | 0, cs => cs
  | fuel + 1, cs =>
    let cs := skipBlanks cs
    match lineBreak? cs with
    | some rest => skipLines fuel rest
    | none => cs

/-- The text of the characters read, newest first. -/
def textOf (read : List Char) : String := String.ofList read.reverse

/-- A string up to its quote, on one line; `escapes` tells whether a backslash has a meaning. The
fuel bounds the number of steps. -/
def readLine (quote : Char) (escapes : Bool) :
    Nat → List Char → List Char → Option (String × List Char)
  | 0, _, _ => none
  | _ + 1, _, [] => none
  | fuel + 1, read, c :: rest =>
    if c = quote then some (textOf read, rest)
    else if escapes && c = '\\' then do
      let (c, rest) ← readEscape rest
      readLine quote escapes fuel (c :: read) rest
    else if isPrintable c then readLine quote escapes fuel (c :: read) rest
    else none

/-- A string up to three quotes, over several lines. Up to two more quotes belong to it. -/
def readLines (quote : Char) (escapes : Bool) :
    Nat → List Char → List Char → Option (String × List Char)
  | 0, _, _ => none
  | _ + 1, _, [] => none
  | fuel + 1, read, c :: rest =>
    if c = quote then
      let run := (c :: rest).takeWhile (· == quote)
      let rest := (c :: rest).drop run.length
      if run.length < 3 then readLines quote escapes fuel (run ++ read) rest
      else if run.length ≤ 5 then some (textOf (run.drop 3 ++ read), rest)
      else none
    else if escapes && c = '\\' then
      match lineBreak? (skipBlanks rest) with
      | some rest => readLines quote escapes fuel read (skipLines rest.length rest)
      | none => do
        let (c, rest) ← readEscape rest
        readLines quote escapes fuel (c :: read) rest
    else match lineBreak? (c :: rest) with
      | some rest => readLines quote escapes fuel ('\n' :: read) rest
      | none => if isPrintable c then readLines quote escapes fuel (c :: read) rest else none

/-- The characters without a line break in front. -/
def dropLineBreak (cs : List Char) : List Char := (lineBreak? cs).getD cs

/-- A string of any kind. -/
def readString (cs : List Char) : Option (String × List Char) :=
  let fuel := cs.length + 1
  match cs with
  | '"' :: '"' :: '"' :: rest => readLines '"' true fuel [] (dropLineBreak rest)
  | '\'' :: '\'' :: '\'' :: rest => readLines '\'' false fuel [] (dropLineBreak rest)
  | '"' :: rest => readLine '"' true fuel [] rest
  | '\'' :: rest => readLine '\'' false fuel [] rest
  | _ => none

/-! ### Keys -/

/-- Whether a character may stand in a key without quotes. -/
def isBare (c : Char) : Bool := c.isAlphanum || c == '-' || c == '_'

/-- One part of a key. -/
def readPart (cs : List Char) : Option (String × List Char) :=
  match cs with
  | '"' :: rest => readLine '"' true (cs.length + 1) [] rest
  | '\'' :: rest => readLine '\'' false (cs.length + 1) [] rest
  | _ =>
    let bare := cs.takeWhile isBare
    if bare.isEmpty then none else some (String.ofList bare, cs.dropWhile isBare)

/-- The parts of a key that are separated by points, with blanks around them. -/
def readParts : Nat → List Char → Option (List String × List Char)
  | 0, _ => none
  | fuel + 1, cs => do
    let (k, rest) ← readPart (skipBlanks cs)
    match skipBlanks rest with
    | '.' :: rest => do
      let (ks, rest) ← readParts fuel rest
      return (k :: ks, rest)
    | rest => return ([k], rest)

/-- How many tables or arrays may be inside one another. -/
def maxDepth : Nat := 79

/-- A key: the path of a table and the last part. -/
def readKey (cs : List Char) : Option ((List String × String) × List Char) := do
  let (ks, rest) ← readParts (cs.length + 1) cs
  let k ← ks.getLast?
  if ks.length ≤ maxDepth then return ((ks.dropLast, k), rest) else none

/-! ### Numbers -/

/-- Digits, of which any two may be separated by an underscore. -/
def readDigits (base : Nat) : Nat → List Char → Option (List Char × List Char)
  | 0, _ => none
  | fuel + 1, cs =>
    match cs with
    | c :: rest =>
      if isDigitIn base c then
        match rest with
        | '_' :: _ => do
          let (ds, rest) ← readDigits base fuel (rest.drop 1)
          return (c :: ds, rest)
        | _ =>
          match readDigits base fuel rest with
          | some (ds, rest) => some (c :: ds, rest)
          | none =>
            if (rest.head?).any (isDigitIn base) then none else some ([c], rest)
      else none
    | [] => none

/-- Digits in a base. -/
def digits (base : Nat) (cs : List Char) : Option (List Char × List Char) :=
  readDigits base (cs.length + 1) cs

/-- The sign of a number and what follows it. -/
def readSign : List Char → Int × List Char
  | '+' :: rest => (1, rest)
  | '-' :: rest => (-1, rest)
  | cs => (1, cs)

/-- A decimal integer without its sign. A leading zero stands alone. -/
def readWhole : List Char → Option (List Char × List Char)
  | '0' :: rest => some (['0'], rest)
  | cs => digits 10 cs

/-- An integer that fits 64 bits. -/
def integerOf (n : Int) : Option Toml :=
  if Word.isSigned 64 n then some (.integer n) else none

/-- An integer in a base other than ten, after its mark. -/
def readBased (base : Nat) (cs : List Char) : Option (Toml × List Char) := do
  let (ds, rest) ← digits base cs
  let v ← integerOf (numberIn base ds)
  return (v, rest)

/-- Whether a positive number `n · 10 ^ e` lies beyond the doubles. -/
def isBeyond (n : Nat) (e : Int) : Bool :=
  let size := (Nat.toDigits 10 n).length
  let limit := Nat.pow 2 1024 - Nat.pow 2 970
  if n = 0 ∨ e + size < 300 then false
  else if 400 < e + size then true
  else if 0 ≤ e then limit ≤ n * Nat.pow 10 e.toNat
  else limit * Nat.pow 10 (-e).toNat ≤ n

/-- The fraction of a float, if there is one. -/
def readFraction : List Char → Option (List Char × List Char)
  | '.' :: rest => digits 10 rest
  | cs => some ([], cs)

/-- The exponent of a float, if there is one. -/
def readExponent : List Char → Option (Option Int × List Char)
  | c :: rest =>
    if c = 'e' || c = 'E' then do
      let (sign, rest) := readSign rest
      let (ds, rest) ← digits 10 rest
      return (some (sign * numberIn 10 ds), rest)
    else some (none, c :: rest)
  | [] => some (none, [])

/-- A float with a fraction or an exponent. A positive one has to be a double. -/
def readFloat (cs : List Char) : Option (Toml × List Char) := do
  let (sign, rest) := readSign cs
  let (whole, rest) ← readWhole rest
  let (fraction, rest) ← readFraction rest
  let (exponent, rest) ← readExponent rest
  let n := numberIn 10 (whole ++ fraction)
  let e := exponent.getD 0 - fraction.length
  if fraction.isEmpty && exponent.isNone then none
  else if 0 < sign && isBeyond n e then none
  else return (.float (String.ofList (cs.take (cs.length - rest.length))), rest)

/-- A fixed word. -/
def readWord (word : String) (v : Toml) (cs : List Char) : Option (Toml × List Char) :=
  (word.toList.isPrefixOf? cs).map fun rest => (v, rest)

/-- A float that is no number or infinite. -/
def readSpecial (cs : List Char) : Option (Toml × List Char) :=
  let (_, rest) := readSign cs
  (readWord "inf" (.float "inf") rest).or (readWord "nan" (.float "nan") rest)

/-- An integer. -/
def readInteger : List Char → Option (Toml × List Char)
  | '0' :: 'x' :: rest => readBased 16 rest
  | '0' :: 'o' :: rest => readBased 8 rest
  | '0' :: 'b' :: rest => readBased 2 rest
  | cs => do
    let (sign, rest) := readSign cs
    let (ds, rest) ← readWhole rest
    let v ← integerOf (sign * numberIn 10 ds)
    return (v, rest)

/-! ### Dates and times -/

/-- A number of exactly so many digits within bounds. -/
def readNumber (width low high : Nat) (cs : List Char) : Option (Nat × List Char) :=
  let ds := cs.take width
  let n := numberIn 10 ds
  if ds.length = width && ds.all isDigit && low ≤ n && n ≤ high then some (n, cs.drop width)
  else none

/-- The characters after a given one. -/
def pass (c : Char) : List Char → Option (List Char)
  | d :: rest => if c = d then some rest else none
  | [] => none

/-- The number of days of a month. -/
def daysOf (year month : Nat) : Nat :=
  if month = 2 then
    if year % 4 = 0 ∧ (year % 100 ≠ 0 ∨ year % 400 = 0) then 29 else 28
  else if month = 4 ∨ month = 6 ∨ month = 9 ∨ month = 11 then 30
  else 31

/-- The characters after a date. -/
def readDate (cs : List Char) : Option (List Char) := do
  let (year, rest) ← readNumber 4 0 9999 cs
  let rest ← pass '-' rest
  let (month, rest) ← readNumber 2 1 12 rest
  let rest ← pass '-' rest
  let (_, rest) ← readNumber 2 1 (daysOf year month) rest
  return rest

/-- The characters after a time of day. -/
def readTime (cs : List Char) : Option (List Char) := do
  let (_, rest) ← readNumber 2 0 23 cs
  let rest ← pass ':' rest
  let (_, rest) ← readNumber 2 0 59 rest
  let rest ← pass ':' rest
  let (_, rest) ← readNumber 2 0 60 rest
  match rest with
  | '.' :: c :: more => if isDigit c then return more.dropWhile isDigit else return rest
  | rest => return rest

/-- The characters after an offset from universal time. -/
def readOffset (cs : List Char) : Option (List Char) :=
  match cs with
  | 'Z' :: rest => some rest
  | 'z' :: rest => some rest
  | '+' :: rest => hours rest
  | '-' :: rest => hours rest
  | _ => none
where
  /-- The characters after hours and minutes. -/
  hours (cs : List Char) : Option (List Char) := do
    let (_, rest) ← readNumber 2 0 23 cs
    let rest ← pass ':' rest
    let (_, rest) ← readNumber 2 0 59 rest
    return rest

/-- The characters after a time that follows a date. -/
def readTimeAfterDate : List Char → Option (List Char)
  | c :: rest =>
    if c = 'T' || c = 't' || c = ' ' then do
      let rest ← readTime rest
      return (readOffset rest).getD rest
    else none
  | [] => none

/-- A date, a time, or both. -/
def readMoment (cs : List Char) : Option (Toml × List Char) := do
  let rest ← match readDate cs with
    | some rest => some ((readTimeAfterDate rest).getD rest)
    | none => readTime cs
  return (.moment (String.ofList (cs.take (cs.length - rest.length))), rest)

/-- A value other than a container. -/
def readScalarValue (cs : List Char) : Option (Toml × List Char) :=
  match cs with
  | '"' :: _ => (readString cs).map fun r => (.string r.1, r.2)
  | '\'' :: _ => (readString cs).map fun r => (.string r.1, r.2)
  | 't' :: _ => readWord "true" (.boolean true) cs
  | 'f' :: _ => readWord "false" (.boolean false) cs
  | _ => (((readMoment cs).or (readFloat cs)).or (readSpecial cs)).or (readInteger cs)

end PaperIndex.Toml
