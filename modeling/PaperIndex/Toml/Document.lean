import PaperIndex.Toml.Token

/-! # TOML documents

A document is a sequence of lines: keys with values, headers of tables and of elements of arrays of
tables, comments. `Toml.parse` answers with the fields of the table that they make, unless a line
cannot be read or takes up a key or a table that is taken. -/

namespace PaperIndex.Toml

/-- The characters after blanks, line breaks and comments inside an array. -/
def skipFiller : Nat → List Char → List Char
  | 0, cs => cs
  | fuel + 1, cs =>
    match skipBlanks cs with
    | '#' :: rest =>
      match lineBreak? (rest.dropWhile isPrintable) with
      | some rest => skipFiller fuel rest
      | none => '#' :: rest
    | cs =>
      match lineBreak? cs with
      | some rest => skipFiller fuel rest
      | none => cs

/-- The characters after all filler. -/
def filler (cs : List Char) : List Char := skipFiller (cs.length + 1) cs

mutual

/-- A value inside `opened` containers. The fuel bounds the number of steps. -/
def readValue (opened : Nat) : Nat → List Char → Option (Toml × List Char)
  | 0, _ => none
  | fuel + 1, cs =>
    match cs with
    | '[' :: rest =>
      if opened < maxDepth then do
        let (items, rest) ← readItems (opened + 1) fuel [] rest
        return (.array items, rest)
      else none
    | '\x7b' :: rest =>
      if opened < maxDepth then do
        let (fs, rest) ← readInline (opened + 1) fuel rest
        return (.table (fieldsToToml fs), rest)
      else none
    | cs => readScalarValue cs

/-- The items of an array, up to its end; a comma may follow the last one. -/
def readItems (opened : Nat) : Nat → List Toml → List Char → Option (List Toml × List Char)
  | 0, _, _ => none
  | fuel + 1, done, cs =>
    match filler cs with
    | ']' :: rest => some (done.reverse, rest)
    | cs => do
      let (v, rest) ← readValue opened fuel cs
      match filler rest with
      | ',' :: rest => readItems opened fuel (v :: done) rest
      | ']' :: rest => return ((v :: done).reverse, rest)
      | _ => none

/-- The fields of an inline table, up to its end. -/
def readInline (opened : Nat) : Nat → List Char → Option (Fields × List Char)
  | 0, _ => none
  | fuel + 1, cs =>
    match skipBlanks cs with
    | '\x7d' :: rest => some ([], rest)
    | cs => readPairs opened fuel [] cs

/-- The fields of an inline table from the next one on. -/
def readPairs (opened : Nat) : Nat → Fields → List Char → Option (Fields × List Char)
  | 0, _, _ => none
  | fuel + 1, fs, cs => do
    let ((path, k), rest) ← readKey cs
    let rest ← pass '=' rest
    let (v, rest) ← readValue opened fuel (skipBlanks rest)
    let fs ← addDotted path k v fs
    match skipBlanks rest with
    | ',' :: rest => readPairs opened fuel fs rest
    | '\x7d' :: rest => return (fs, rest)
    | _ => none

end

/-- What a line holds. -/
inductive Line
  | empty
  | pair (path : List String) (key : String) (v : Toml)
  | header (path : List String) (key : String)
  | element (path : List String) (key : String)

/-- A line and what follows it. -/
def readDocumentLine (cs : List Char) : Option (Line × List Char) :=
  match cs with
  | '#' :: _ => (lineEnd? cs).map fun rest => (.empty, rest)
  | '\n' :: rest => some (.empty, rest)
  | '\r' :: _ => (lineBreak? cs).map fun rest => (.empty, rest)
  | '[' :: '[' :: rest => do
    let ((path, k), rest) ← readKey rest
    let rest ← pass ']' rest
    let rest ← pass ']' rest
    let rest ← lineEnd? rest
    return (.element path k, rest)
  | '[' :: rest => do
    let ((path, k), rest) ← readKey rest
    let rest ← pass ']' rest
    let rest ← lineEnd? rest
    return (.header path k, rest)
  | cs => do
    let ((path, k), rest) ← readKey cs
    let rest ← pass '=' rest
    let (v, rest) ← readValue 0 (4 * rest.length + 4) (skipBlanks rest)
    let rest ← lineEnd? rest
    return (.pair path k v, rest)

/-- The lines of a document, with blanks in front of them. -/
def readDocumentLines : Nat → List Char → Option (List Line)
  | 0, _ => none
  | fuel + 1, cs =>
    match skipBlanks cs with
    | [] => some []
    | cs => do
      let (line, rest) ← readDocumentLine cs
      let lines ← readDocumentLines fuel rest
      return line :: lines

/-- The tables of a document so far, and the path of the table that is open. -/
structure Building where
  root : Fields
  current : List String

/-- Takes up a line. -/
def Building.add (b : Building) : Line → Option Building
  | .empty => some b
  | .pair path k v => do
    let root ← changeAt false (fun _ fs => addDotted path k v fs) b.current .header b.root
    return { b with root }
  | .header path k => do
    let root ← changeAt false (fun _ fs => openTable k fs) path .header b.root
    return ⟨root, path ++ [k]⟩
  | .element path k => do
    let root ← changeAt false (fun _ fs => openElement k fs) path .header b.root
    return ⟨root, path ++ [k]⟩

/-- The fields of the table of a document. -/
def parse (s : String) : Option (List (String × Toml)) := do
  let cs := match s.toList with
    | '\ufeff' :: rest => rest
    | cs => cs
  let lines ← readDocumentLines (cs.length + 1) cs
  let b ← lines.foldlM Building.add ⟨[], []⟩
  return fieldsToToml b.root

end PaperIndex.Toml
