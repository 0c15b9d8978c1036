import PaperIndex.Error
import PaperIndex.Files.Path
import PaperIndex.Text.Escaped
import PaperIndex.Text.Quoted

/-! # Addresses of databases

A database is named by an address: the name of a file with escaped bytes and, after a question mark,
parameters that say how the file is used. What the name means is decided next: a database in memory,
or the path of a file, perhaps in the form of a `file:` URI. -/

namespace PaperIndex.Database

/-- How a database is named. -/
structure Address where
  name : String
  isInMemory : Bool
  isReadOnly : Bool
  /-- The file is taken not to change while it is used. -/
  isFrozen : Bool
  /-- The file system that is asked for. -/
  system : Option String
deriving DecidableEq, Repr

/-- Why an address says nothing. -/
inductive AddressFault
  /-- The bytes of the name are no text. -/
  | notText (fault : Text.Utf8.Fault)
  | unknownValue (parameter value : String)
  | unknownParameter (name : String)
deriving DecidableEq, Repr

/-- The wording of a fault. -/
def AddressFault.message : AddressFault → String
  | .notText fault => fault.message
  | .unknownValue parameter value =>
    "unknown value " ++ Text.quoted value ++ " for `" ++ parameter ++ "`"
  | .unknownParameter name =>
    "unknown query parameter `" ++ name ++ "` while parsing connection URL"

namespace Address

/-! ### Reading -/

/-- The text without the lead, however often it is repeated. The fuel bounds the repetitions. -/
def dropLeads (lead : String) : Nat → String → String
  | 0, s => s
  | fuel + 1, s =>
    match Text.after? lead s with
    | some rest => dropLeads lead fuel rest
    | none => s

/-- The text without the scheme, in either of its forms. -/
def dropScheme (s : String) : String :=
  dropLeads "sqlite:" s.length (dropLeads "sqlite://" s.length s)

/-- The name of a database in memory. -/
def memoryName : String := ":memory:"

/-- The database with a name, as it is usually used. -/
def named (name : String) : Address := ⟨name, name = memoryName, false, false, none⟩

/-- The address of a name with escaped bytes. -/
def ofName (s : String) : Except AddressFault Address :=
  if s = memoryName then .ok (named memoryName)
  else match Text.Utf8.decode (Text.Escaped.bytesOf s) with
    | .ok name => .ok { named name with isInMemory := false }
    | .error fault => .error (.notText fault)

/-- Takes up a parameter. Whether the file may be created is not for the address to decide, and
whether connections share what they have read makes no difference. -/
def withParameter (a : Address) (parameter : String × String) : Except AddressFault Address :=
  let (name, value) := parameter
  let unknown : Except AddressFault Address := .error (.unknownValue name value)
  if name = "mode" then
    if value = "ro" then .ok { a with isReadOnly := true }
    else if value = "rw" ∨ value = "rwc" then .ok a
    else if value = "memory" then .ok { a with isInMemory := true }
    else unknown
  else if name = "cache" then
    if value = "private" ∨ value = "shared" then .ok a else unknown
  else if name = "immutable" then
    if value = "true" ∨ value = "1" then .ok { a with isFrozen := true }
    else if value = "false" ∨ value = "0" then .ok { a with isFrozen := false }
    else unknown
  else if name = "vfs" then .ok { a with system := some value }
  else .error (.unknownParameter name)

/-- The address that a path is, written after the scheme. -/
def ofPath (path : String) : Except AddressFault Address := do
  let cs := (dropScheme ("sqlite:" ++ path)).toList
  let a ← ofName (String.ofList (cs.takeWhile (· != '?')))
  let parameters := String.ofList ((cs.dropWhile (· != '?')).drop 1)
  (Text.Escaped.formPairs parameters).foldlM withParameter a

end Address

/-! ### Meaning -/

/-- What an address means. -/
inductive Target
  /-- A database that is gone at the end. -/
  | memory
  | file (path : String)
deriving DecidableEq, Repr

/-- The file systems that can be asked for by name. -/
def knownSystems : List String := ["unix", "unix-dotfile", "unix-excl", "unix-none"]

/-- The file system in memory. -/
def memorySystem : String := "memdb"

/-- The path in a `file:` URI, after the scheme. -/
def uriPath (s : String) : Except Refusal String := do
  let path ← match Text.after? "//" s with
    | none => pure s
    | some rest =>
      let authority := String.ofList (rest.toList.takeWhile (· != '/'))
      if authority = "" ∨ authority = "localhost" then
        pure (String.ofList (rest.toList.dropWhile (· != '/')))
      else .error (.unknownAuthority authority)
  let bytes := Text.Escaped.bytesOf
    (String.ofList (path.toList.takeWhile fun c => c != '?' && c != '#'))
  return Text.Utf8.decodeLossy (bytes.takeWhile (· != 0))

/-- What the name of a file means that is no URI. -/
def plainTarget (name : String) : Target :=
  if name = "" ∨ name = Address.memoryName then .memory else .file name

/-- The text before the first null character. -/
def untilNull (s : String) : String := String.ofList (s.toList.takeWhile (· != '\x00'))

/-- What the name of a file means. -/
def targetOf (name : String) : Except Refusal Target :=
  match Text.after? "file:" name with
  | some rest => (uriPath rest).map plainTarget
  | none => .ok (plainTarget name)

/-- Whether the name is passed on with all its bytes escaped, which keeps it from being read as a
URI and ends it before the first null character. -/
def Address.isEscaped (a : Address) : Bool := a.isFrozen || a.system.isSome

/-- What an address means in the file system that it asks for. -/
def Address.target (a : Address) : Except Refusal Target :=
  let system := a.system.getD "unix"
  if system = memorySystem then .ok .memory
  else if system ∉ knownSystems then .error (.unknownSystem system)
  else if a.isInMemory then .ok .memory
  else if a.isEscaped then .ok (plainTarget (untilNull a.name))
  else targetOf a.name

end PaperIndex.Database
