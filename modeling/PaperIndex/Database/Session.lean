import PaperIndex.Database
import PaperIndex.Database.Address
import PaperIndex.Files.Disk

/-! # Opening databases

A database is opened by the path in a configuration. The directory around the path is made first;
then the path is read as an address, and the file is opened or created. A database that may only be
read is never created, and one whose file is frozen keeps the file as it is. -/

namespace PaperIndex.Database

open Files (Disk Place Entry)

/-- What a file holds. -/
inductive Content
  | text (s : String)
  /-- A database, which may still be without its relations. -/
  | database (db : Option Database)
  /-- Neither of them. -/
  | binary

/-- The text of a file. -/
def Content.text? : Content → Except Files.Fault String
  | .text s => .ok s
  | _ => .error .notText

/-- Why a database cannot be used. -/
inductive OpenFault
  /-- The directory around it cannot be made. -/
  | directory (fault : Files.Fault)
  | address (fault : AddressFault)
  | nullInName
  | refused (r : Refusal)
deriving DecidableEq, Repr

/-- What is beneath the complaint about a fault. -/
def OpenFault.cause? : OpenFault → Option String
  | .directory _ => none
  | .address fault => some fault.message
  | .nullInName => some "filename passed to SQLite must not contain nul bytes"
  | .refused r => some r.message

/-- The complaint about a fault. -/
def OpenFault.message (f : OpenFault) : String :=
  match f with
  | .directory fault => fault.message
  | .address _ => "error with configuration: " ++ f.cause?.getD ""
  | .nullInName => "error communicating with database: " ++ f.cause?.getD ""
  | .refused r => r.complaint

/-- A database that has been opened. -/
structure Session where
  /-- What the database holds, if it has its relations. -/
  database : Option Database
  isWritable : Bool
  /-- Where the database is kept, if anywhere. -/
  place : Option Place

/-- Leaves a database behind. -/
def Session.keep (s : Session) (db : Option Database) (d : Disk Content) : Disk Content :=
  match s.place with
  | some p => if s.isWritable then d.put p (.file (.database db)) else d
  | none => d

/-! ### Places of databases -/

/-- The number of bytes that the path from the root has to stay below. -/
def pathLimit : Nat := 512

/-- The length of the path from the root to a place. -/
def pathLength (p : Place) : Nat := p.foldr (fun name n => name.utf8ByteSize + 1 + n) 0

/-- The place of a database: a step outward undoes the step before it, wherever that leads. There is
none beyond a file, a long name or a long path. -/
def place? (d : Disk Content) (p : Place) : List String → Option Place
  | [] => some p
  | s :: ss =>
    if s = Files.Path.outward then place? d p.tail ss
    else if (d.entry? p).any (!·.isDirectory) || Files.maxName < s.utf8ByteSize ||
        pathLimit ≤ pathLength (s :: p) then none
    else place? d (s :: p) ss

/-! ### Opening -/

/-- Opens the database at a place. The file is created unless the database may only be read; an
empty file is a database without relations. -/
def openAt (a : Address) (d : Disk Content) (p : Place) :
    Except Refusal Session × Disk Content :=
  let fixed (db : Option Database) : Session := ⟨db, !a.isReadOnly && !a.isFrozen, some p⟩
  let fresh : Except Refusal Session × Disk Content :=
    if a.isFrozen then (.ok (fixed none), d.put p (.file (.text "")))
    else (.ok (fixed none), (fixed none).keep none d)
  match d.entry? p with
  | some .directory => (.error (if a.isReadOnly then .unreadable else .unopened), d)
  | some (.file (.database db)) => (.ok (fixed db), d)
  | some (.file (.text "")) =>
    if a.isReadOnly && !a.isFrozen then (.error .readOnly, d) else fresh
  | some (.file _) => (.error .notDatabase, d)
  | none =>
    if a.isReadOnly || !d.isDirectory p.tail then (.error .unopened, d) else fresh

/-- Opens the database with an address. -/
def openAddress (a : Address) (d : Disk Content) : Except Refusal Session × Disk Content :=
  match a.target with
  | .error r => (.error r, d)
  | .ok .memory => (.ok ⟨none, !a.isReadOnly, none⟩, d)
  | .ok (.file text) =>
    let path := Files.Path.ofText text
    match place? d (d.origin path) path.steps with
    | some p => openAt a d p
    | none => (.error .unopened, d)

/-- **Opens the database with a path.** -/
def openPath (path : String) (d : Disk Content) : Except OpenFault Session × Disk Content :=
  match d.makeParent path with
  | .error fault => (.error (.directory fault), d)
  | .ok d =>
    match Address.ofPath path with
    | .error fault => (.error (.address fault), d)
    | .ok a =>
      if Files.hasNull a.name && !a.isEscaped then (.error .nullInName, d)
      else
        let (r, d) := openAddress a d
        (r.mapError .refused, d)

/-- The database as a task finds it: the relations are created if they are missing. -/
def Session.relations (s : Session) : Except Refusal Database :=
  match s.database with
  | some db => .ok db
  | none => if s.isWritable then .ok .empty else .error .readOnly

end PaperIndex.Database
