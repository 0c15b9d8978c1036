import PaperIndex.Error
import PaperIndex.Json.Decode
import PaperIndex.Network.Http
import PaperIndex.Text.Blank
import PaperIndex.Text.Pieces

/-! # Servers of authorities

An authority is resolved through its document: that of `did:plc` is in a directory, that of
`did:web` on the host that it names. The document lists services; the first one that is a server of
records counts. -/

namespace PaperIndex.Identity

open Json

/-- A service of a document. -/
structure Service where
  id : String
  type : Option String
  endpoint : Json
deriving Repr

/-- The fields of a service. -/
def serviceFields : List FieldSpec :=
  [.of "id" .refused readTextValue,
   .of "type" .fromObject (readOptional readTextValue),
   .of "serviceEndpoint" .refused fun d => liftProblem d.value?]

/-- Reads a service. -/
def readService (d : Draft) : Decoded Service := do
  let seen ← readFieldsOf .text "struct DidService" serviceFields d
  return {
    id := ← required seen "id" readTextValue
    type := ← withDefault none seen "type" (readOptional readTextValue)
    endpoint := ← required seen "serviceEndpoint" fun d => liftProblem d.value? }

/-- Reads the services of a document. -/
def readDocument (d : Draft) : Decoded (List Service) := do
  let fields : List FieldSpec := [.of "service" .allowed (readList readService)]
  let seen ← readFieldsOf .text "struct DidDocument" fields d
  withDefault [] seen "service" (readList readService)

/-- Whether a service is a server of records. -/
def Service.isServer (s : Service) : Bool :=
  Text.hasEnd "#atproto_pds" s.id || s.type == some "AtprotoPersonalDataServer"

/-- The endpoint of the first server of records, without slashes at its end. -/
def serverOf? (services : List Service) : Option String := do
  let s ← services.find? Service.isServer
  (s.endpoint.text?).map Text.trimEndSlashes

/-- The URL of the document of an authority. -/
def documentUrl? (directory did : String) : Option String :=
  if Text.hasLead "did:plc:" did then some (directory ++ "/" ++ did)
  else (Text.after? "did:web:" did).map fun host =>
    "https://" ++ String.ofList (Text.replaceAll "%3A".toList [':'] host.toList) ++
      "/.well-known/did.json"

/-- Asks for the document of an authority and finds its server. -/
def resolve {ω : Type} (t : Http.Transport ω) (directory userAgent did : String) (world : ω) :
    Except FetchError String × ω :=
  match documentUrl? directory did with
  | none => (.error (.authority did), world)
  | some url =>
    let (answer, world) := t.send ⟨url, [], userAgent⟩ world
    let found : Except FetchError String := match answer with
      | none => .error (.resolutionFailed url)
      | some r =>
        if Http.isSuccess r.status then
          match decodeText readDocument r.body with
          | .error _ => .error (.badDocument did)
          | .ok services =>
            match serverOf? services with
            | some endpoint => .ok endpoint
            | none => .error (.noServer did)
        else .error (.resolutionStatus did (Http.statusText r.status))
    (found, world)

end PaperIndex.Identity
