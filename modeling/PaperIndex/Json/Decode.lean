import PaperIndex.Json.Draft
import PaperIndex.Text.Quoted

/-! # Reading typed data from JSON

A reader turns a draft into data of a type and says what is wrong with the first part that does not
fit. Fields are checked in the order in which they stand, a missing field is noticed after all of
them, in the order in which the type declares its fields. A type with fields is also read from an
array of their values. -/

namespace PaperIndex.Json

/-- What is found at a place where something else is expected. -/
inductive Found
  | null
  | bool (b : Bool)
  | number (n : Number)
  | string (s : String)
  | sequence
  | map
deriving DecidableEq, Repr

/-- The words for what is found. -/
def Found.message : Found → String
  | .null => "null"
  | .bool b => "boolean `" ++ (if b then "true" else "false") ++ "`"
  | .number (.integer n) => "integer `" ++ toString n ++ "`"
  | .number (.double bits) => "floating point `" ++ doubleText bits ++ "`"
  | .string s => "string " ++ Text.quoted s
  | .sequence => "sequence"
  | .map => "map"

/-- Why a value does not fit its type. -/
inductive Mismatch
  /-- Another kind of value stands here. -/
  | wrongType (found : Found) (expected : String)
  /-- An integer is out of range. -/
  | outOfRange (n : Int) (expected : String)
  | missingField (name : String)
  | duplicateField (name : String)
  | unknownVariant (name : String) (known : List String)
  /-- An array has too few or too many items. -/
  | wrongLength (length : Nat) (expected : String)
deriving DecidableEq, Repr

/-- The words for a mismatch. -/
def Mismatch.message : Mismatch → String
  | .wrongType found expected =>
    "invalid type: " ++ found.message ++ ", expected " ++ expected
  | .outOfRange n expected =>
    "invalid value: integer `" ++ toString n ++ "`, expected " ++ expected
  | .missingField name => "missing field `" ++ name ++ "`"
  | .duplicateField name => "duplicate field `" ++ name ++ "`"
  | .unknownVariant name known =>
    "unknown variant `" ++ name ++ "`, expected one of " ++
      String.intercalate ", " (known.map fun k => "`" ++ k ++ "`")
  | .wrongLength n expected =>
    "invalid length " ++ toString n ++ ", expected " ++ expected

/-- Why data cannot be read from a text or a value. -/
inductive DecodeError
  /-- The text cannot be read on. -/
  | text (p : Problem)
  /-- A value does not fit its type. -/
  | data (m : Mismatch)
deriving DecidableEq, Repr

/-- The result of reading. -/
abbrev Decoded (α : Type) := Except DecodeError α

/-- Where a draft comes from; it shows in what is said of an array with too many items. -/
inductive Source
  /-- A text that is read as it is decoded. -/
  | text
  /-- A value. -/
  | value
  /-- A value that is held back until its tag is known. -/
  | tagged
deriving DecidableEq, Repr

/-- Reports a problem of the text. -/
def liftProblem {α : Type} : Except Problem α → Decoded α
  | .ok a => .ok a
  | .error p => .error (.text p)

/-- The complaint that something else is expected in place of a draft. -/
def Draft.unexpected {α : Type} (expected : String) (d : Draft) : Decoded α :=
  let complain (f : Found) : Decoded α := .error (.data (.wrongType f expected))
  match d with
  | .null => complain .null
  | .bool b => complain (.bool b)
  | .number n => complain (.number n)
  | .string s => complain (.string s)
  | .array .. => complain .sequence
  | .object .. => complain .map
  | .flaw asked _ => .error (.text asked)

/-! ### Simple types -/

/-- A text. -/
def readTextValue : Draft → Decoded String
  | .string s => .ok s
  | d => d.unexpected "a string"

/-- A flag. -/
def readFlag : Draft → Decoded Bool
  | .bool b => .ok b
  | d => d.unexpected "a boolean"

/-- A natural number of so many bits. -/
def readUnsigned (bits : Nat) : Draft → Decoded Nat
  | .number (.integer n) =>
    if Word.isUnsigned bits n then .ok n.toNat
    else .error (.data (.outOfRange n ("u" ++ toString bits)))
  | d => d.unexpected ("u" ++ toString bits)

/-- A value or `null`. -/
def readOptional {α : Type} (read : Draft → Decoded α) : Draft → Decoded (Option α)
  | .null => .ok none
  | d => (read d).map some

/-- Items of one type. -/
def readList {α : Type} (read : Draft → Decoded α) : Draft → Decoded (List α)
  | .array items stop => do
    let as ← items.mapM read
    liftProblem (atStop stop)
    return as
  | d => d.unexpected "a sequence"

/-! ### Types with fields -/

/-- What holds when a field is absent. -/
inductive Absence
  /-- The field has to be there. -/
  | refused
  /-- The field may be absent from an object, not from an array. -/
  | fromObject
  /-- The field may be absent. -/
  | allowed
deriving DecidableEq, Repr

/-- A declared field. -/
structure FieldSpec where
  name : String
  absence : Absence
  /-- Checks the value. -/
  check : Draft → Decoded Unit

/-- The field with a reader for its value. -/
def FieldSpec.of {α : Type} (name : String) (absence : Absence) (read : Draft → Decoded α) :
    FieldSpec :=
  ⟨name, absence, fun d => (read d).map fun _ => ()⟩

/-- Walks through the fields of an object and returns those that are declared. -/
def walkFields (specs : List FieldSpec) (seen : List (String × Draft)) :
    List (Option String × Draft) → Decoded (List (String × Draft))
  | [] => .ok seen
  | (none, _) :: _ => .error (.text .malformed)
  | (some k, d) :: rest =>
    match specs.find? (·.name == k) with
    | none => do
      liftProblem d.skip
      walkFields specs seen rest
    | some spec =>
      if (seen.lookup k).isSome then .error (.data (.duplicateField k))
      else do
        spec.check d
        walkFields specs ((k, d) :: seen) rest

/-- Complains of the first declared field that is absent and may not be. -/
def requireFields (seen : List (String × Draft)) : List FieldSpec → Decoded Unit
  | [] => .ok ()
  | spec :: specs =>
    if spec.absence = .refused ∧ (seen.lookup spec.name).isNone then
      .error (.data (.missingField spec.name))
    else requireFields seen specs

/-- The words for a number of items. -/
def elements (n : Nat) : String :=
  toString n ++ (if n = 1 then " element" else " elements")

/-- The complaint of an array with items after the declared fields. -/
def tooLong {α : Type} (source : Source) (declared length : Nat) : Decoded α :=
  match source with
  | .text => .error (.text .malformed)
  | .value => .error (.data (.wrongLength length "fewer elements in array"))
  | .tagged => .error (.data (.wrongLength length (elements declared ++ " in sequence")))

/-- Gives the items of an array to the declared fields in turn; `done` fields have theirs. -/
def walkItems (source : Source) (expected : String) (stop : Option Problem)
    (seen : List (String × Draft)) (done : Nat) :
    List FieldSpec → List Draft → Decoded (List (String × Draft))
  | [], [] => do
    liftProblem (atStop stop)
    return seen
  | [], items => tooLong source done (done + items.length)
  | spec :: specs, d :: items => do
    spec.check d
    walkItems source expected stop ((spec.name, d) :: seen) (done + 1) specs items
  | spec :: specs, [] => do
    liftProblem (atStop stop)
    if spec.absence = .allowed then
      walkItems source expected stop seen (done + 1) specs []
    else .error (.data (.wrongLength done expected))

/-- The values of the declared fields that are present. The name says what is expected. -/
def readFieldsOf (source : Source) (name : String) (specs : List FieldSpec) (d : Draft) :
    Decoded (List (String × Draft)) :=
  match d with
  | .object fields stop => do
    let seen ← walkFields specs [] fields
    liftProblem (atStop stop)
    requireFields seen specs
    return seen
  | .array items stop =>
    walkItems source (name ++ " with " ++ elements specs.length) stop [] 0 specs items
  | d => d.unexpected name

/-- The value of a field that has to be present. -/
def required {α : Type} (seen : List (String × Draft)) (name : String)
    (read : Draft → Decoded α) : Decoded α :=
  match seen.lookup name with
  | some d => read d
  | none => .error (.data (.missingField name))

/-- The value of a field, or the given one if the field is absent. -/
def withDefault {α : Type} (default : α) (seen : List (String × Draft)) (name : String)
    (read : Draft → Decoded α) : Decoded α :=
  match seen.lookup name with
  | some d => read d
  | none => .ok default

/-! ### Types with a tag -/

/-- The values of fields, held back until the tag is known. -/
abbrev HeldFields := List (Option String × Draft)

/-- Walks through an object with a tag; the other fields are held back. -/
def walkTagged {α : Type} (tag : String) (readTag : Draft → Decoded α) (found : Option α)
    (held : List (String × Json)) : HeldFields → Decoded (Option α × List (String × Json))
  | [] => .ok (found, held.reverse)
  | (none, _) :: _ => .error (.text .malformed)
  | (some k, d) :: rest =>
    if k = tag then
      if found.isSome then .error (.data (.duplicateField tag))
      else do
        let a ← readTag d
        walkTagged tag readTag (some a) held rest
    else do
      let j ← liftProblem d.value?
      walkTagged tag readTag found ((k, j) :: held) rest

/-- The tag of a value, and the value that is held back without it. -/
def readTagged {α : Type} (name tag : String) (readTag : Draft → Decoded α) (d : Draft) :
    Decoded (α × Json) :=
  match d with
  | .object fields stop => do
    let (found, held) ← walkTagged tag readTag none [] fields
    liftProblem (atStop stop)
    match found with
    | some a => return (a, .object held)
    | none => .error (.data (.missingField tag))
  | .array [] stop => do
    liftProblem (atStop stop)
    .error (.data (.missingField tag))
  | .array (d :: items) stop => do
    let a ← readTag d
    let held ← liftProblem (itemValues? items)
    liftProblem (atStop stop)
    return (a, .array held)
  | d => d.unexpected name

/-! ### Whole texts and values -/

/-- Reads data from a text that holds nothing else. -/
def decodeText {α : Type} (read : Draft → Decoded α) (s : String) : Decoded α := do
  let (d, more) := draftOf s
  let a ← read d
  if more then .error (.text .malformed) else return a

/-- Reads data from a value, whose fields stand in the order of their keys. -/
def decodeValue {α : Type} (read : Draft → Decoded α) (j : Json) : Decoded α :=
  read (Draft.ofValue j.canonical)

end PaperIndex.Json
