import PaperIndex.Network.Identity
import PaperIndex.Record.Uri
import PaperIndex.Sync.Repository

/-! # Records from their servers

A record is asked for at the hinted server, or at the server of its authority. It does not exist if
the server has nothing there or says so; whatever else goes wrong is a failure of the fetch. -/

namespace PaperIndex.Remote

open Json

/-- How servers are found and asked. -/
structure Client where
  /-- The directory of `did:plc` documents, without slashes at its end. -/
  directory : String
  userAgent : String
deriving DecidableEq, Repr

/-- The client for a directory. -/
def Client.of (directory userAgent : String) : Client :=
  ⟨Text.trimEndSlashes directory, userAgent⟩

/-- A record as a server states it. -/
structure Statement where
  uri : String
  cid : Option String
  value : Json
deriving Repr

/-- Reads a value. -/
def readAny (d : Draft) : Decoded Json := liftProblem d.value?

/-- Reads a statement. -/
def readStatement (d : Draft) : Decoded Statement := do
  let fields : List FieldSpec :=
    [.of "uri" .refused readTextValue,
     .of "cid" .fromObject (readOptional readTextValue),
     .of "value" .refused readAny]
  let seen ← readFieldsOf .text "struct GetRecordResponse" fields d
  return {
    uri := ← required seen "uri" readTextValue
    cid := ← withDefault none seen "cid" (readOptional readTextValue)
    value := ← required seen "value" readAny }

/-- The refusal of a server: a name and a wording. -/
structure Refusal where
  name : Option String
  wording : Option String
deriving DecidableEq, Repr

/-- Reads a refusal. -/
def readRefusal (d : Draft) : Decoded Refusal := do
  let fields : List FieldSpec :=
    [.of "error" .fromObject (readOptional readTextValue),
     .of "message" .fromObject (readOptional readTextValue)]
  let seen ← readFieldsOf .text "struct XrpcError" fields d
  return {
    name := ← withDefault none seen "error" (readOptional readTextValue)
    wording := ← withDefault none seen "message" (readOptional readTextValue) }

/-- The refusal in the body of a response, without any words if there is none. -/
def refusalOf (body : String) : Refusal :=
  match decodeText readRefusal body with
  | .ok r => r
  | .error _ => ⟨none, none⟩

/-- What the response of a server says about a record. -/
def judge (uri endpoint : String) (r : Http.Response) : Except FetchError (Option Fetched) :=
  if r.status = 404 then .ok none
  else if r.status = 400 then
    let refusal := refusalOf r.body
    if refusal.name = some "RecordNotFound" then .ok none
    else .error (.rejected uri ((refusal.wording.or refusal.name).getD ""))
  else if Http.isSuccess r.status then
    match decodeText readStatement r.body with
    | .error _ => .error (.badResponse uri)
    | .ok s =>
      match s.cid with
      | none => .error (.noCid uri)
      | some cid => .ok (some ⟨s.uri, cid, s.value.canonical, endpoint⟩)
  else .error (.answerStatus uri (Http.statusText r.status) r.body)

namespace Client

variable {ω : Type}

/-- The server of an authority. -/
def resolve (c : Client) (t : Http.Transport ω) (did : String) (world : ω) :
    Except FetchError String × ω :=
  Identity.resolve t c.directory c.userAgent did world

/-- The server to ask: the hinted one, or that of the authority. -/
def serverFor (c : Client) (t : Http.Transport ω) (authority : String) (hint : Option String)
    (world : ω) : Except FetchError String × ω :=
  match hint with
  | some endpoint => (.ok (Text.trimEndSlashes endpoint), world)
  | none => c.resolve t authority world

/-- Asks a server for a record. -/
def ask (c : Client) (t : Http.Transport ω) (uri : String) (u : RecordUri) (endpoint : String)
    (world : ω) : Except FetchError (Option Fetched) × ω :=
  let url := endpoint ++ "/xrpc/com.atproto.repo.getRecord"
  let query := [("repo", u.authority), ("collection", u.collection), ("rkey", u.rkey)]
  let (answer, world) := t.send ⟨url, query, c.userAgent⟩ world
  (match answer with
    | none => .error (.requestFailed url)
    | some r => judge uri endpoint r,
    world)

/-- Fetches the record of a URI. -/
def fetch (c : Client) (t : Http.Transport ω) (uri : String) (hint : Option String) (world : ω) :
    Except FetchError (Option Fetched) × ω :=
  match RecordUri.parse uri with
  | .error fault => (.error (.badUri fault), world)
  | .ok u =>
    let (server, world) := c.serverFor t u.authority hint world
    match server with
    | .error e => (.error e, world)
    | .ok endpoint => c.ask t uri u endpoint world

/-- The repository of all servers that a transport reaches. -/
def repository {ρ : Type} (c : Client) (t : Http.Transport ω) : Repository ω ρ where
  fetch uri hint world cache :=
    let (answer, world) := c.fetch t uri hint world
    (answer, world, cache)

end Client

end PaperIndex.Remote
