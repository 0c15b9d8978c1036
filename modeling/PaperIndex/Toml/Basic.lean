/-! # TOML values and the tables of a document

The value of a document is a table. While a document is read, each of its tables remembers how it
came about, because that decides whether it may be added to later: a table with a header of its own
is closed for dotted keys, one that is only implied by the header of another may still get its own,
and one that is made by dotted keys may not. -/

namespace PaperIndex

/-- A TOML value. Of floats and dates the text is kept. -/
inductive Toml
  | string (s : String)
  | integer (n : Int)
  | float (s : String)
  | boolean (b : Bool)
  | moment (s : String)
  | array (items : List Toml)
  | table (fields : List (String × Toml))
deriving Repr, Inhabited

namespace Toml

/-- How a table came about. -/
inductive Origin
  /-- It has a header of its own. -/
  | header
  /-- It is part of the header of another table. -/
  | implied
  /-- It is part of a dotted key. -/
  | dotted
deriving DecidableEq, Repr

/-- What stands under a key while a document is read. -/
inductive Node
  | value (v : Toml)
  | table (origin : Origin) (fields : List (String × Node))
  /-- An array of tables, the last one first. -/
  | tables (items : List (List (String × Node)))
deriving Inhabited

/-- The fields of a table while a document is read. -/
abbrev Fields := List (String × Node)

/-- Replaces what stands under a key that is there. -/
def replace (k : String) (n : Node) (fs : Fields) : Fields :=
  fs.map fun f => if f.1 = k then (k, n) else f

/-- Changes the table at a path, which is made if it is not there; `dotted` tells whether the path
is a dotted key. -/
def changeAt (dotted : Bool) (change : Origin → Fields → Option Fields) :
    List String → Origin → Fields → Option Fields
  | [], origin, fs => change origin fs
  | k :: ks, _, fs =>
    match fs.lookup k with
    | none => do
      let made : Origin := if dotted then .dotted else .implied
      let sub ← changeAt dotted change ks made []
      return fs ++ [(k, .table made sub)]
    | some (.table origin sub) =>
      if dotted && origin = .header then none
      else do
        let sub ← changeAt dotted change ks origin sub
        return replace k (.table origin sub) fs
    | some (.tables (last :: others)) => do
      let last ← changeAt dotted change ks .header last
      return replace k (.tables (last :: others)) fs
    | some _ => none

/-- Adds a value under a new key. -/
def addNew (k : String) (v : Toml) (fs : Fields) : Option Fields :=
  if (fs.lookup k).isSome then none else some (fs ++ [(k, .value v)])

/-- Adds a value under a dotted key: a path and a last key. -/
def addDotted (path : List String) (k : String) (v : Toml) (fs : Fields) : Option Fields :=
  changeAt true
    (fun origin fs => if path.isEmpty || origin = .dotted then addNew k v fs else none)
    path .header fs

/-- Gives the table under a key its own header. -/
def openTable (k : String) (fs : Fields) : Option Fields :=
  match fs.lookup k with
  | none => some (fs ++ [(k, .table .header [])])
  | some (.table .implied sub) => some (replace k (.table .header sub) fs)
  | some _ => none

/-- Starts another table of the array of tables under a key. -/
def openElement (k : String) (fs : Fields) : Option Fields :=
  match fs.lookup k with
  | none => some (fs ++ [(k, .tables [[]])])
  | some (.tables items) => some (replace k (.tables ([] :: items)) fs)
  | some _ => none

mutual

/-- The value of what stands under a key. -/
def Node.toToml : Node → Toml
  | .value v => v
  | .table _ fs => .table (fieldsToToml fs)
  | .tables items => .array (tablesToToml items).reverse

/-- The values of the fields of a table. -/
def fieldsToToml : List (String × Node) → List (String × Toml)
  | [] => []
  | (k, n) :: fs => (k, n.toToml) :: fieldsToToml fs

/-- The values of the tables of an array. -/
def tablesToToml : List (List (String × Node)) → List Toml
  | [] => []
  | fs :: items => .table (fieldsToToml fs) :: tablesToToml items

end

end Toml

end PaperIndex
