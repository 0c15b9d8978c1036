import PaperIndex.Graph.Basic
import PaperIndex.Json.Decode

/-! # Submitted citations and requested pages

How citations are read and written, and how a page of a listing is asked for. -/

namespace PaperIndex

open Json

namespace Citation

/-- The fields of a citation; it is not influential unless it says so. -/
def fields : List FieldSpec :=
  [.of "citingUri" .refused readTextValue,
   .of "citedUri" .refused readTextValue,
   .of "isInfluential" .allowed readFlag,
   .of "source" .refused readTextValue]

/-- Reads a citation. -/
def read (origin : Json.Source) (d : Draft) : Decoded Citation := do
  let seen ← readFieldsOf origin "struct NewCitation" fields d
  return {
    citing := ← required seen "citingUri" readTextValue
    cited := ← required seen "citedUri" readTextValue
    isInfluential := ← withDefault false seen "isInfluential" readFlag
    source := ← required seen "source" readTextValue }

/-- The value of a citation. -/
def toJson (c : Citation) : Json :=
  .object [("citingUri", .string c.citing), ("citedUri", .string c.cited),
    ("isInfluential", .bool c.isInfluential), ("source", .string c.source)]

end Citation

/-- The value of a citation of the graph. -/
def Edge.toJson (e : Edge) : Json :=
  .object [("citingUri", .string e.citing), ("citedUri", .string e.cited),
    ("isInfluential", .bool e.isInfluential), ("source", .string e.source),
    ("discoveredAt", .string (Time.timestamp e.discoveredAt))]

/-- The value of a co-citation. -/
def CoCitation.toJson (c : CoCitation) : Json :=
  .object [("uri", .string c.uri), ("coCitationCount", .int c.count)]

namespace Citations

/-- The part of a listing that is asked for. -/
structure PageRequest where
  limit : Option Nat
  offset : Option Nat
deriving DecidableEq, Repr

namespace PageRequest

/-- The fields of a request. -/
def fields : List FieldSpec :=
  [.of "limit" .fromObject (readOptional (readUnsigned 32)),
   .of "offset" .fromObject (readOptional (readUnsigned 32))]

/-- Reads a request. -/
def read (origin : Json.Source) (d : Draft) : Decoded PageRequest := do
  let seen ← readFieldsOf origin "struct PageOptions" fields d
  return {
    limit := ← withDefault none seen "limit" (readOptional (readUnsigned 32))
    offset := ← withDefault none seen "offset" (readOptional (readUnsigned 32)) }

end PageRequest

end Citations

end PaperIndex
