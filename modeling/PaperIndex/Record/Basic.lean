import PaperIndex.Record.Uri
import PaperIndex.Json.Print
import PaperIndex.Text.Blank

/-! # Records

The bodies that the index accepts: eprints, review comments and endorsements, told apart by the
field `$type`. `Record.ofJson` reads and checks a body, `Record.toJson` writes the accepted form of
it, in which absent options and an empty list of keywords are left out. -/

namespace PaperIndex

/-- An author of an eprint. -/
structure Author where
  name : String
  did : Option String
  orcid : Option String
deriving DecidableEq, Repr

/-- An eprint as its authors submit it. -/
structure Eprint where
  title : String
  summary : String
  authors : List Author
  keywords : List String
  doi : Option String
  createdAt : String
deriving DecidableEq, Repr

/-- A review comment on a record. -/
structure Review where
  subject : String
  text : String
  createdAt : String
deriving DecidableEq, Repr

/-- An endorsement of a record. -/
structure Endorsement where
  subject : String
  contributions : List String
  createdAt : String
deriving DecidableEq, Repr

/-- The body of a record. -/
inductive Record
  | eprint (e : Eprint)
  | review (r : Review)
  | endorsement (e : Endorsement)
deriving DecidableEq, Repr

/-- The three kinds of records. -/
inductive RecordKind
  | eprint
  | review
  | endorsement
deriving DecidableEq, Repr

namespace RecordKind

/-- The name of a kind, as it stands in the field `$type`. -/
def name : RecordKind → String
  | .eprint => "pub.chive.eprint.submission"
  | .review => "pub.chive.review.comment"
  | .endorsement => "pub.chive.review.endorsement"

/-- The kind with a name. -/
def ofName? (s : String) : Option RecordKind :=
  [RecordKind.eprint, .review, .endorsement].find? fun k => k.name == s

end RecordKind

namespace Record

/-- The kind of a record. -/
def kind : Record → RecordKind
  | .eprint _ => .eprint
  | .review _ => .review
  | .endorsement _ => .endorsement

/-- The name of the kind of a record. -/
def typeName (r : Record) : String := r.kind.name

/-- Only eprints become papers of the citation graph. -/
def isEprint : Record → Bool
  | .eprint _ => true
  | _ => false

/-! ### Reading -/

open Json

/-- The fields of an author. -/
def authorFields : List FieldSpec :=
  [.of "name" .refused readTextValue,
   .of "did" .allowed (readOptional readTextValue),
   .of "orcid" .allowed (readOptional readTextValue)]

/-- Reads an author. -/
def readAuthor (d : Draft) : Decoded Author := do
  let seen ← readFieldsOf .tagged "struct Author" authorFields d
  return {
    name := ← required seen "name" readTextValue
    did := ← withDefault none seen "did" (readOptional readTextValue)
    orcid := ← withDefault none seen "orcid" (readOptional readTextValue) }

/-- The fields of an eprint. -/
def eprintFields : List FieldSpec :=
  [.of "title" .refused readTextValue,
   .of "abstract" .refused readTextValue,
   .of "authors" .refused (readList readAuthor),
   .of "keywords" .allowed (readList readTextValue),
   .of "doi" .allowed (readOptional readTextValue),
   .of "createdAt" .refused readTextValue]

/-- Reads an eprint. -/
def readEprint (d : Draft) : Decoded Eprint := do
  let seen ← readFieldsOf .tagged "struct EprintSubmission" eprintFields d
  return {
    title := ← required seen "title" readTextValue
    summary := ← required seen "abstract" readTextValue
    authors := ← required seen "authors" (readList readAuthor)
    keywords := ← withDefault [] seen "keywords" (readList readTextValue)
    doi := ← withDefault none seen "doi" (readOptional readTextValue)
    createdAt := ← required seen "createdAt" readTextValue }

/-- The fields of a review comment. -/
def reviewFields : List FieldSpec :=
  [.of "subject" .refused readTextValue,
   .of "text" .refused readTextValue,
   .of "createdAt" .refused readTextValue]

/-- Reads a review comment. -/
def readReview (d : Draft) : Decoded Review := do
  let seen ← readFieldsOf .tagged "struct ReviewComment" reviewFields d
  return {
    subject := ← required seen "subject" readTextValue
    text := ← required seen "text" readTextValue
    createdAt := ← required seen "createdAt" readTextValue }

/-- The fields of an endorsement. -/
def endorsementFields : List FieldSpec :=
  [.of "subject" .refused readTextValue,
   .of "contributions" .refused (readList readTextValue),
   .of "createdAt" .refused readTextValue]

/-- Reads an endorsement. -/
def readEndorsement (d : Draft) : Decoded Endorsement := do
  let seen ← readFieldsOf .tagged "struct Endorsement" endorsementFields d
  return {
    subject := ← required seen "subject" readTextValue
    contributions := ← required seen "contributions" (readList readTextValue)
    createdAt := ← required seen "createdAt" readTextValue }

/-- Reads the body of a record of the given kind. -/
def readBody (kind : RecordKind) (d : Draft) : Decoded Record :=
  match kind with
  | .eprint => (readEprint d).map .eprint
  | .review => (readReview d).map .review
  | .endorsement => (readEndorsement d).map .endorsement

/-- The fields of a value other than its type, in the order of their keys. -/
def bodyOf (j : Json) : Json :=
  .object (j.canonical.fields.filter fun f => f.1 != "$type")

/-- The checks that a body passes besides fitting its type. -/
def check : Record → Except InputFault Unit
  | .eprint e =>
    if Text.isBlankText e.title then .error .emptyTitle
    else if e.authors.isEmpty then .error .noAuthors
    else .ok ()
  | .review r =>
    if Text.isBlankText r.text then .error .emptyReview
    else (RecordUri.parse r.subject).map fun _ => ()
  | .endorsement e => (RecordUri.parse e.subject).map fun _ => ()

/-- Reads and checks the body of a record. -/
def ofJson (j : Json) : Except InputFault Record :=
  match (j.field? "$type").bind Json.text? with
  | none => .error .noRecordType
  | some type =>
    match RecordKind.ofName? type with
    | none => .error (.unknownRecordType type)
    | some kind =>
      match readBody kind (Draft.ofValue (bodyOf j)) with
      | .error e => .error (.malformedRecord type e)
      | .ok r => r.check.map fun _ => r

/-! ### Writing -/

/-- A field that is left out when there is no value. -/
def optionalField (name : String) (s : Option String) : List (String × Json) :=
  match s with
  | some s => [(name, .string s)]
  | none => []

/-- The value of an author. -/
def authorJson (a : Author) : Json :=
  .object (("name", .string a.name) :: optionalField "did" a.did ++ optionalField "orcid" a.orcid)

/-- An array of texts. -/
def textsJson (ss : List String) : Json := .array (ss.map .string)

/-- The fields of a body after its type. -/
def bodyFields : Record → List (String × Json)
  | .eprint e =>
    [("title", .string e.title), ("abstract", .string e.summary),
     ("authors", .array (e.authors.map authorJson))] ++
    (if e.keywords.isEmpty then [] else [("keywords", textsJson e.keywords)]) ++
    optionalField "doi" e.doi ++ [("createdAt", .string e.createdAt)]
  | .review r =>
    [("subject", .string r.subject), ("text", .string r.text),
     ("createdAt", .string r.createdAt)]
  | .endorsement e =>
    [("subject", .string e.subject), ("contributions", textsJson e.contributions),
     ("createdAt", .string e.createdAt)]

/-- The value of a record, its type first. -/
def toJson (r : Record) : Json := .object (("$type", .string r.typeName) :: r.bodyFields)

/-- The accepted text of a record. -/
def toText (r : Record) : String := r.toJson.compact

/-! ### Kinds -/

theorem ofName?_name (k : RecordKind) : RecordKind.ofName? k.name = some k := by
  cases k <;> decide

theorem name_of_ofName? {s : String} {k : RecordKind} (h : RecordKind.ofName? s = some k) :
    k.name = s := by
  have := List.find?_some h
  simpa using this

theorem isEprint_iff_typeName (r : Record) :
    r.isEprint = true ↔ r.typeName = RecordKind.eprint.name := by
  cases r <;> simp [isEprint, typeName, kind, RecordKind.name]

end Record

end PaperIndex
