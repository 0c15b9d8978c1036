import PaperIndex.Json.Basic
import PaperIndex.Word

/-! # Drafts: JSON texts as far as they can be read

A draft is the tree of a text up to the first place at which reading has to stop. Whoever walks
through a draft from left to right meets the problems of the text and those of its meaning in the
order in which they stand. Some tokens are well formed and still denote no value (half of a
surrogate pair, a number beyond the doubles): they are problems for whoever asks for their value,
and none for whoever skips them. -/

namespace PaperIndex.Json

/-- Why a text cannot be read on. -/
inductive Problem
  /-- Something stands where it may not stand. -/
  | malformed
  /-- The text ends too early. -/
  | unfinished
deriving DecidableEq, Repr

/-- A text as far as it can be read. -/
inductive Draft
  | null
  | bool (b : Bool)
  | number (n : Number)
  | string (s : String)
  /-- The items read; without a stop the array is closed. -/
  | array (items : List Draft) (stop : Option Problem)
  /-- The fields read, with `none` for a key that denotes no text. -/
  | object (fields : List (Option String × Draft)) (stop : Option Problem)
  /-- What is met by whoever asks for the value, and by whoever skips it. -/
  | flaw (asked : Problem) (skipped : Option Problem)
deriving Repr, Inhabited

/-- A place at which reading stops for everybody. -/
def Draft.stop (p : Problem) : Draft := .flaw p (some p)

/-- A token that is well formed and denotes no value. -/
def Draft.valueless : Draft := .flaw .malformed none

/-! ### Skipping -/

/-- The problem of a container that has been left at a stop. -/
def atStop : Option Problem → Except Problem Unit
  | none => .ok ()
  | some p => .error p

mutual

/-- Skips a value: only what stops reading is met. -/
def Draft.skip : Draft → Except Problem Unit
  | .array items stop => do skipItems items; atStop stop
  | .object fields stop => do skipFields fields; atStop stop
  | .flaw _ skipped => atStop skipped
  | _ => .ok ()

/-- Skips the items in turn. -/
def skipItems : List Draft → Except Problem Unit
  | [] => .ok ()
  | d :: ds => do d.skip; skipItems ds

/-- Skips the fields in turn. -/
def skipFields : List (Option String × Draft) → Except Problem Unit
  | [] => .ok ()
  | (_, d) :: fs => do d.skip; skipFields fs

end

/-! ### Tokens -/

/-- The blanks between tokens. -/
def isSpace (c : Char) : Bool := c = ' ' || c = '\n' || c = '\t' || c = '\r'

/-- The text after its leading blanks. -/
def skipSpaces (cs : List Char) : List Char := cs.dropWhile isSpace

/-- The value of a hexadecimal digit. -/
def hexDigit? (c : Char) : Option Nat :=
  if '0' ≤ c ∧ c ≤ '9' then some (c.toNat - 48)
  else if 'a' ≤ c ∧ c ≤ 'f' then some (c.toNat - 87)
  else if 'A' ≤ c ∧ c ≤ 'F' then some (c.toNat - 55)
  else none

/-- The number that four hexadecimal digits denote. -/
def hexQuad? (a b c d : Char) : Option Nat :=
  match hexDigit? a, hexDigit? b, hexDigit? c, hexDigit? d with
  | some a, some b, some c, some d => some (((a * 16 + b) * 16 + c) * 16 + d)
  | _, _, _, _ => none

/-- The character that a backslash and this character denote, if they denote one. -/
def shortEscape? (c : Char) : Option Char :=
  if c = '"' ∨ c = '\\' ∨ c = '/' then some c
  else if c = 'b' then some '\x08'
  else if c = 'f' then some '\x0c'
  else if c = 'n' then some '\n'
  else if c = 'r' then some '\r'
  else if c = 't' then some '\t'
  else none

/-- The number of bytes in which characters are encoded. -/
def encodedSize (cs : List Char) : Nat := (String.ofList cs).utf8ByteSize

/-- A token and what follows it. -/
inductive Token (α : Type)
  /-- A token with its value. -/
  | value (a : α) (rest : List Char)
  /-- A well-formed token without a value. -/
  | valueless (rest : List Char)
  /-- Reading stops inside the token, with what is met by asking and by skipping. -/
  | broken (asked skipped : Problem)

/-- The state inside a string: the characters read, newest first; the first half of a surrogate
pair that waits for the second; whether a half has been left alone. -/
structure StringState where
  read : List Char
  half : Option Nat
  lonely : Bool

namespace StringState

/-- At the opening quote. -/
def start : StringState := ⟨[], none, false⟩

/-- Whether the string can no longer denote a text. -/
def isLost (st : StringState) : Bool := st.lonely || st.half.isSome

/-- After a character that is no escaped code unit. -/
def push (st : StringState) (c : Char) : StringState :=
  if st.half.isSome then { st with half := none, lonely := true }
  else { st with read := c :: st.read }

/-- After an escaped code unit. -/
def pushUnit (st : StringState) (n : Nat) : StringState :=
  let isHigh := 0xD800 ≤ n && n ≤ 0xDBFF
  let isLow := 0xDC00 ≤ n && n ≤ 0xDFFF
  match st.half with
  | some h =>
    if isLow then
      { st with
        read := Char.ofNat ((h - 0xD800) * 0x400 + (n - 0xDC00) + 0x10000) :: st.read
        half := none }
    else { st with half := none, lonely := true }
  | none =>
    if isHigh then { st with half := some n }
    else if isLow then { st with lonely := true }
    else { st with read := Char.ofNat n :: st.read }

/-- Reading stops inside the string. An earlier lonely half is met first by whoever asks. -/
def broken (st : StringState) (p : Problem) : Token String :=
  .broken (if st.lonely then .malformed else p) p

end StringState

/-- The string after its opening quote. -/
def readString (st : StringState) : List Char → Token String
  | [] => st.broken .unfinished
  | '"' :: rest =>
    if st.isLost then .valueless rest else .value (String.ofList st.read.reverse) rest
  | '\\' :: rest =>
    match rest with
    | [] => st.broken .unfinished
    | 'u' :: digits =>
      if encodedSize (digits.take 4) < 4 then st.broken .unfinished
      else match digits with
        | a :: b :: c :: d :: rest =>
          match hexQuad? a b c d with
          | some n => readString (st.pushUnit n) rest
          | none => st.broken .malformed
        | _ => st.broken .malformed
    | c :: rest =>
      match shortEscape? c with
      | some c => readString (st.push c) rest
      | none => st.broken .malformed
  | c :: rest => if c.toNat < 0x20 then st.broken .malformed else readString (st.push c) rest

/-! ### Numbers -/

/-- The greatest integer of 64 bits. -/
def maxUnsigned : Nat := Word.greatest 64

/-- Takes digits into a number as long as it stays below `2 ^ 64`; the other digits come back. -/
def takeDigits (n : Nat) : List Char → Nat × List Char
  | [] => (n, [])
  | c :: cs =>
    let m := n * 10 + (c.toNat - 48)
    if m ≤ maxUnsigned then takeDigits m cs else (n, c :: cs)

/-- The double next to `n · 10 ^ e`: a product or a quotient of two doubles, in several steps below
`10 ^ -308`. There is none beyond the greatest double. -/
def scaled? (n : Nat) (e : Int) : Option Float :=
  go 4 (Float.ofNat n) e
where
  /-- The steps that bring the exponent into range. -/
  go : Nat → Float → Int → Option Float
    | 0, f, _ => some f
    | steps + 1, f, e =>
      if e.natAbs ≤ 308 then
        let power := Float.ofScientific 1 false e.natAbs
        if 0 ≤ e then
          let g := f * power
          if g.isInf then none else some g
        else some (f / power)
      else if f == 0.0 then some f
      else if 0 ≤ e then none
      else go steps (f / 1e308) (e + 308)

/-- The value of a number from its parts: sign, integer digits, fraction digits and exponent. -/
def numberOf? (negative : Bool) (whole : List Char) (fraction : Option (List Char))
    (exponent : Option Int) : Option Number :=
  let (n, left) := takeDigits 0 whole
  let signed (f : Float) : Number := .double (if negative then -f else f).toBits
  match fraction, exponent with
  | none, none =>
    if left.isEmpty then
      if negative then
        if n = 0 ∨ Word.count 63 < n then some (signed (Float.ofNat n)) else some (.integer (-n))
      else some (.integer n)
    else (scaled? n left.length).map signed
  | _, _ =>
    let ds := fraction.getD []
    let (m, unread) := takeDigits n ds
    let e : Int := (left.length : Int) - (ds.length - unread.length : Nat) + exponent.getD 0
    (scaled? m e).map signed

/-- Whether a character is a decimal digit. -/
def isDigit (c : Char) : Bool := '0' ≤ c && c ≤ '9'

/-- The number that decimal digits denote. -/
def digitsValue (cs : List Char) : Nat := cs.foldl (fun n c => n * 10 + (c.toNat - 48)) 0

/-- What stops a number at a place where a digit has to stand. For whoever skips the number, the end
of the text is as wrong there as any other character. -/
def missingDigit : List Char → Token Number
  | [] => .broken .unfinished .malformed
  | _ => .broken .malformed .malformed

/-- A number with its value, if it has one. -/
def numberToken (n : Option Number) (rest : List Char) : Token Number :=
  match n with
  | some n => .value n rest
  | none => .valueless rest

/-- The exponent of a number, if there is one, after its integer and fraction digits. -/
def readExponent (negative : Bool) (whole : List Char) (fraction : Option (List Char))
    (cs : List Char) : Token Number :=
  match cs with
  | c :: rest =>
    if c = 'e' ∨ c = 'E' then
      let (sign, rest) : Int × List Char := match rest with
        | '+' :: rest => (1, rest)
        | '-' :: rest => (-1, rest)
        | rest => (1, rest)
      let ds := rest.takeWhile isDigit
      if ds.isEmpty then missingDigit rest
      else
        numberToken (numberOf? negative whole fraction (some (sign * digitsValue ds)))
          (rest.dropWhile isDigit)
    else numberToken (numberOf? negative whole fraction none) cs
  | [] => numberToken (numberOf? negative whole fraction none) []

/-- The fraction of a number, if there is one, after its integer digits. -/
def readFraction (negative : Bool) (whole : List Char) (cs : List Char) : Token Number :=
  match cs with
  | '.' :: rest =>
    let ds := rest.takeWhile isDigit
    if ds.isEmpty then missingDigit rest
    else readExponent negative whole (some ds) (rest.dropWhile isDigit)
  | cs => readExponent negative whole none cs

/-- A number after its sign. No digit follows a leading zero. -/
def readNumber (negative : Bool) (cs : List Char) : Token Number :=
  match cs with
  | '0' :: rest =>
    match rest with
    | c :: _ => if isDigit c then missingDigit rest else readFraction negative ['0'] rest
    | [] => readFraction negative ['0'] rest
  | cs =>
    let ds := cs.takeWhile isDigit
    if ds.isEmpty then missingDigit cs
    else readFraction negative ds (cs.dropWhile isDigit)

/-- The rest of a fixed word. -/
def readWord (word : List Char) (d : Draft) (cs : List Char) : Draft × Option (List Char) :=
  match word, cs with
  | [], cs => (d, some cs)
  | _ :: _, [] => (.stop .unfinished, none)
  | w :: ws, c :: cs => if w = c then readWord ws d cs else (.stop .malformed, none)

/-- The draft of a token, and what follows it if reading goes on. -/
def Token.draft {α : Type} (mk : α → Draft) : Token α → Draft × Option (List Char)
  | .value a rest => (mk a, some rest)
  | .valueless rest => (.valueless, some rest)
  | .broken asked skipped => (.flaw asked (some skipped), none)

/-! ### Values -/

/-- How many containers may be open at once. -/
def maxOpen : Nat := 127

/-- A container that is opened inside `opened` others: one too deep can only be skipped. -/
def Draft.opened (opened : Nat) (d : Draft) : Draft :=
  if opened < maxOpen then d
  else match d.skip with
    | .ok () => .valueless
    | .error p => .flaw .malformed (some p)

mutual

/-- A value inside `opened` containers, and what follows it if reading goes on. The fuel bounds the
number of steps. -/
def readValue (opened : Nat) : Nat → List Char → Draft × Option (List Char)
  | 0, _ => (.stop .malformed, none)
  | fuel + 1, cs =>
    match skipSpaces cs with
    | [] => (.stop .unfinished, none)
    | c :: rest =>
      if c = '"' then (readString .start rest).draft .string
      else if c = '[' then
        let (items, stop, rest) := readItems (opened + 1) fuel true rest
        ((Draft.array items stop).opened opened, rest)
      else if c = '\x7b' then
        let (fields, stop, rest) := readFields (opened + 1) fuel true rest
        ((Draft.object fields stop).opened opened, rest)
      else if c = 'n' then readWord "ull".toList .null rest
      else if c = 't' then readWord "rue".toList (.bool true) rest
      else if c = 'f' then readWord "alse".toList (.bool false) rest
      else if c = '-' then (readNumber true rest).draft .number
      else if isDigit c then (readNumber false (c :: rest)).draft .number
      else (.stop .malformed, none)

/-- The items of an array from here on; `first` holds right after the opening bracket. -/
def readItems (opened : Nat) : Nat → Bool → List Char →
    List Draft × Option Problem × Option (List Char)
  | 0, _, _ => ([], some .malformed, none)
  | fuel + 1, first, cs =>
    match skipSpaces cs with
    | [] => ([], some .unfinished, none)
    | c :: rest =>
      if c = ']' then ([], none, some rest)
      else if first then readItem opened fuel (c :: rest)
      else if c = ',' then
        match skipSpaces rest with
        | ']' :: _ => ([.stop .malformed], none, none)
        | rest => readItem opened fuel rest
      else ([], some .malformed, none)

/-- An item and those after it. -/
def readItem (opened : Nat) : Nat → List Char → List Draft × Option Problem × Option (List Char)
  | 0, _ => ([], some .malformed, none)
  | fuel + 1, cs =>
    match readValue opened fuel cs with
    | (d, none) => ([d], none, none)
    | (d, some rest) =>
      let (ds, stop, rest) := readItems opened fuel false rest
      (d :: ds, stop, rest)

/-- The fields of an object from here on; `first` holds right after the opening brace. -/
def readFields (opened : Nat) : Nat → Bool → List Char →
    List (Option String × Draft) × Option Problem × Option (List Char)
  | 0, _, _ => ([], some .malformed, none)
  | fuel + 1, first, cs =>
    match skipSpaces cs with
    | [] => ([], some .unfinished, none)
    | c :: rest =>
      if c = '\x7d' then ([], none, some rest)
      else if first then readField opened fuel (c :: rest)
      else if c = ',' then readField opened fuel (skipSpaces rest)
      else ([], some .malformed, none)

/-- A field and those after it. -/
def readField (opened : Nat) : Nat → List Char →
    List (Option String × Draft) × Option Problem × Option (List Char)
  | 0, _ => ([], some .malformed, none)
  | fuel + 1, cs =>
    match cs with
    | [] => ([], some .unfinished, none)
    | c :: rest =>
      if c = '"' then
        match readString .start rest with
        | .value k rest => readFieldValue opened fuel (some k) rest
        | .valueless rest => readFieldValue opened fuel none rest
        | .broken asked skipped =>
          if asked = skipped then ([], some asked, none)
          else ([(none, .stop skipped)], none, none)
      else ([], some .malformed, none)

/-- The value of a field after its key, and the fields after it. -/
def readFieldValue (opened : Nat) : Nat → Option String → List Char →
    List (Option String × Draft) × Option Problem × Option (List Char)
  | 0, _, _ => ([], some .malformed, none)
  | fuel + 1, k, cs =>
    match skipSpaces cs with
    | [] => ([(k, .stop .unfinished)], none, none)
    | c :: rest =>
      if c = ':' then
        match readValue opened fuel rest with
        | (d, none) => ([(k, d)], none, none)
        | (d, some rest) =>
          let (fs, stop, rest) := readFields opened fuel false rest
          ((k, d) :: fs, stop, rest)
      else ([(k, .stop .malformed)], none, none)

end

/-- The draft of a text, and whether something other than blanks follows its value. -/
def draftOf (s : String) : Draft × Bool :=
  let cs := s.toList
  match readValue 0 (4 * cs.length + 4) cs with
  | (d, none) => (d, false)
  | (d, some rest) => (d, !(skipSpaces rest).isEmpty)

/-! ### Values and drafts -/

mutual

/-- The value of a draft, its fields in text order. -/
def Draft.value? : Draft → Except Problem Json
  | .null => .ok .null
  | .bool b => .ok (.bool b)
  | .number n => .ok (.number n)
  | .string s => .ok (.string s)
  | .flaw asked _ => .error asked
  | .array items stop => do
    let js ← itemValues? items
    atStop stop
    return .array js
  | .object fields stop => do
    let fs ← fieldValues? fields
    atStop stop
    return .object fs

/-- The values of items in turn. -/
def itemValues? : List Draft → Except Problem (List Json)
  | [] => .ok []
  | d :: ds => do
    let j ← d.value?
    let js ← itemValues? ds
    return j :: js

/-- The values of fields in turn. A key without a text is a problem. -/
def fieldValues? : List (Option String × Draft) → Except Problem (List (String × Json))
  | [] => .ok []
  | (none, _) :: _ => .error .malformed
  | (some k, d) :: fs => do
    let j ← d.value?
    let js ← fieldValues? fs
    return (k, j) :: js

end

mutual

/-- The draft of a value: nothing is missing from it. -/
def Draft.ofValue : Json → Draft
  | .null => .null
  | .bool b => .bool b
  | .number n => .number n
  | .string s => .string s
  | .array items => .array (draftsOf items) none
  | .object fields => .object (fieldDraftsOf fields) none

/-- The drafts of items. -/
def draftsOf : List Json → List Draft
  | [] => []
  | j :: js => Draft.ofValue j :: draftsOf js

/-- The drafts of fields. -/
def fieldDraftsOf : List (String × Json) → List (Option String × Draft)
  | [] => []
  | (k, j) :: fs => (some k, Draft.ofValue j) :: fieldDraftsOf fs

end

/-- The value of a whole text, its fields in text order. -/
def ofText? (s : String) : Except Problem Json := do
  let (d, more) := draftOf s
  let j ← d.value?
  if more then .error .malformed else return j

end PaperIndex.Json
