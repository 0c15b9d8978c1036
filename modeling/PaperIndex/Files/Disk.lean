import PaperIndex.Files.Path
import PaperIndex.Table

/-! # Disks

A disk holds directories and files at places, and one of its directories is the working directory. A
step of a path can be taken only in a directory, and only to what is there; when a directory is made
together with those around it, the missing ones are made first. -/

namespace PaperIndex.Files

/-- Why a path is of no use. -/
inductive Fault
  | missing
  | notDirectory
  | isDirectory
  /-- Something else is there. -/
  | taken
  | nameTooLong
  | nullInName
  /-- The file does not hold a text. -/
  | notText
deriving DecidableEq, Repr

/-- The wording of a fault. -/
def Fault.message : Fault → String
  | .missing => "No such file or directory (os error 2)"
  | .notDirectory => "Not a directory (os error 20)"
  | .isDirectory => "Is a directory (os error 21)"
  | .taken => "File exists (os error 17)"
  | .nameTooLong => "File name too long (os error 36)"
  | .nullInName => "file name contained an unexpected NUL byte"
  | .notText => "stream did not contain valid UTF-8"

/-- A place: the names on the way to it from the root, the last one first. -/
abbrev Place := List String

/-- What is at a place. -/
inductive Entry (α : Type)
  | directory
  | file (content : α)
deriving DecidableEq, Repr

/-- Whether an entry is a directory. -/
def Entry.isDirectory {α : Type} : Entry α → Bool
  | .directory => true
  | .file _ => false

/-- Directories and files. -/
structure Disk (α : Type) where
  entries : Table Place (Entry α)
  /-- The working directory. -/
  here : Place

namespace Disk

variable {α : Type}

/-- What is at a place; the root is a directory. -/
def entry? (d : Disk α) (p : Place) : Option (Entry α) :=
  if p = [] then some .directory else d.entries.find? p

/-- Whether there is a directory at a place. -/
def isDirectory (d : Disk α) (p : Place) : Bool := (d.entry? p).any Entry.isDirectory

/-- Puts something at a place. -/
def put (d : Disk α) (p : Place) (e : Entry α) : Disk α :=
  { d with entries := d.entries.insert p e }

/-- Puts directories at a place and all places around it. -/
def putDirectories (d : Disk α) : Place → Disk α
  | [] => d
  | name :: p => (d.putDirectories p).put (name :: p) .directory

/-- The disk with nothing but the way to its working directory. -/
def around (here : Place) : Disk α := (⟨.empty, here⟩ : Disk α).putDirectories here

/-- Where the steps of a path begin. -/
def origin (d : Disk α) (path : Path) : Place := if path.isAbsolute then [] else d.here

/-! ### Following paths -/

/-- The place to which steps lead. -/
def follow (d : Disk α) (p : Place) : List String → Except Fault Place
  | [] => .ok p
  | s :: ss =>
    if !d.isDirectory p then .error .notDirectory
    else if s = Path.outward then d.follow p.tail ss
    else if maxName < s.utf8ByteSize then .error .nameTooLong
    else if (d.entry? (s :: p)).isSome then d.follow (s :: p) ss
    else .error .missing

/-- The content of the file with a path. -/
def read (d : Disk α) (text : String) : Except Fault α :=
  if hasNull text then .error .nullInName
  else if text = "" then .error .missing
  else do
    let path := Path.ofText text
    let p ← d.follow (d.origin path) path.steps
    match d.entry? p with
    | some (.file content) => if path.namesDirectory then .error .notDirectory else .ok content
    | some .directory => .error .isDirectory
    | none => .error .missing

/-! ### Making directories -/

/-- Makes a directory at the end of steps, all but the last of which have to be there. -/
def makeDirectory (d : Disk α) (start : Place) (steps : List String) : Except Fault (Disk α) :=
  if steps.any hasNull then .error .nullInName
  else do
    let p ← d.follow start steps.dropLast
    let name := (steps.getLast?).getD Path.outward
    if !d.isDirectory p then .error .notDirectory
    else if name = Path.outward then .error .taken
    else if maxName < name.utf8ByteSize then .error .nameTooLong
    else if (d.entry? (name :: p)).isSome then .error .taken
    else return d.put (name :: p) .directory

/-- Whether steps lead to a directory. -/
def leadsToDirectory (d : Disk α) (start : Place) (steps : List String) : Bool :=
  match d.follow start steps with
  | .ok p => d.isDirectory p
  | .error _ => false

/-- The disk after a directory has been made, which may have been there before. -/
def orThere (d : Disk α) (start : Place) (steps : List String) :
    Except Fault (Disk α) → Except Fault (Disk α)
  | .error .taken => if d.leadsToDirectory start steps then .ok d else .error .taken
  | r => r

/-- Makes a directory and, if some are missing, those on the way to it. The steps are given with the
last one first. -/
def makeDirectories (d : Disk α) (start : Place) : List String → Except Fault (Disk α)
  | [] => .ok d
  | name :: outer =>
    let steps := (name :: outer).reverse
    match d.makeDirectory start steps with
    | .error .missing => do
      let d ← d.makeDirectories start outer
      d.orThere start steps (d.makeDirectory start steps)
    | r => d.orThere start steps r

/-- Makes the directory in which the file with a path belongs. -/
def makeParent (d : Disk α) (text : String) : Except Fault (Disk α) :=
  let path := Path.ofText text
  d.makeDirectories (d.origin path) path.steps.reverse.tail

/-- Writes a file, together with the directories on the way to it. -/
def write (d : Disk α) (text : String) (content : α) : Except Fault (Disk α) := do
  let path := Path.ofText text
  let d ← d.makeParent text
  let p ← d.follow (d.origin path) path.steps.dropLast
  match path.steps.getLast? with
  | some name => return d.put (name :: p) (.file content)
  | none => .error .isDirectory

end Disk

end PaperIndex.Files
