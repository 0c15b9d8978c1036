import PaperIndex.Json.Decode

/-! # Engagement events

What is reported about a subject: that it was viewed or downloaded, perhaps by a known actor, how
long a reader stayed with it, and what a search led to. `Event.read` and `Event.toJson` are the two
directions between events and tagged values. -/

namespace PaperIndex.Metrics

/-- An event about a subject. -/
inductive Event
  | view (uri : String) (actor : Option String)
  | download (uri : String) (actor : Option String)
  /-- A reader stayed for some milliseconds. -/
  | dwell (uri : String) (millis : Nat)
  | searchClick (uri : String)
  | searchDownload (uri : String)
deriving DecidableEq, Repr

/-- The kinds of events. -/
inductive EventKind
  | view
  | download
  | dwell
  | searchClick
  | searchDownload
deriving DecidableEq, Repr

namespace EventKind

/-- All kinds, as they are listed. -/
def all : List EventKind := [.view, .download, .dwell, .searchClick, .searchDownload]

/-- The tag of a kind. -/
def tag : EventKind → String
  | .view => "view"
  | .download => "download"
  | .dwell => "dwellTime"
  | .searchClick => "searchClick"
  | .searchDownload => "searchDownload"

/-- The name of a kind, as it is used in complaints. -/
def title : EventKind → String
  | .view => "struct variant MetricEvent::View"
  | .download => "struct variant MetricEvent::Download"
  | .dwell => "struct variant MetricEvent::DwellTime"
  | .searchClick => "struct variant MetricEvent::SearchClick"
  | .searchDownload => "struct variant MetricEvent::SearchDownload"

end EventKind

namespace Event

open Json

/-- The subject of an event. -/
def subject : Event → String
  | .view uri _ => uri
  | .download uri _ => uri
  | .dwell uri _ => uri
  | .searchClick uri => uri
  | .searchDownload uri => uri

/-- Reads the tag of an event. -/
def readKind : Draft → Decoded EventKind
  | .string s =>
    match EventKind.all.find? fun k => k.tag == s with
    | some k => .ok k
    | none => .error (.data (.unknownVariant s (EventKind.all.map EventKind.tag)))
  | d => d.unexpected "variant identifier"

/-- The field of the subject. -/
def uriField : FieldSpec := .of "uri" .refused readTextValue

/-- The field of the actor. -/
def actorField : FieldSpec := .of "actorId" .fromObject (readOptional readTextValue)

/-- The field of a duration. -/
def durationField : FieldSpec := .of "durationMs" .refused (readUnsigned 64)

/-- Reads the fields of an event after its tag. -/
def readBody (kind : EventKind) (d : Draft) : Decoded Event := do
  let fields : List FieldSpec := match kind with
    | .view => [uriField, actorField]
    | .download => [uriField, actorField]
    | .dwell => [uriField, durationField]
    | .searchClick => [uriField]
    | .searchDownload => [uriField]
  let seen ← readFieldsOf .tagged kind.title fields d
  let uri ← required seen "uri" readTextValue
  let actor ← withDefault none seen "actorId" (readOptional readTextValue)
  match kind with
  | .view => return .view uri actor
  | .download => return .download uri actor
  | .dwell => return .dwell uri (← required seen "durationMs" (readUnsigned 64))
  | .searchClick => return .searchClick uri
  | .searchDownload => return .searchDownload uri

/-- Reads an event. -/
def read (d : Draft) : Decoded Event := do
  let (kind, body) ← readTagged "internally tagged enum MetricEvent" "type" readKind d
  readBody kind (Draft.ofValue body)

/-- The value of an event. -/
def toJson : Event → Json
  | .view uri actor =>
    .object [("type", .string "view"), ("uri", .string uri), ("actorId", .ofOption actor)]
  | .download uri actor =>
    .object [("type", .string "download"), ("uri", .string uri), ("actorId", .ofOption actor)]
  | .dwell uri millis =>
    .object [("type", .string "dwellTime"), ("uri", .string uri), ("durationMs", .int millis)]
  | .searchClick uri => .object [("type", .string "searchClick"), ("uri", .string uri)]
  | .searchDownload uri => .object [("type", .string "searchDownload"), ("uri", .string uri)]

end Event

end PaperIndex.Metrics
