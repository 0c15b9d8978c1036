import PaperIndex.Json.Print
import PaperIndex.Network.Target
import PaperIndex.Record.Uri
import PaperIndex.Table

/-! # Scripted servers

A server on one host that answers by path: each path has a queue of responses, of which the last one
stays. Records that are asked for without a queue are looked up in a table. All requests that arrive
are noted. A server that does not listen is not reached. -/

namespace PaperIndex.Http

/-- A request as it arrives. -/
structure Arrival where
  target : String
  userAgent : String
deriving DecidableEq, Repr

/-- A server. -/
structure Server where
  host : String
  listening : Bool
  /-- The responses of each path. -/
  routes : Table String (List Response)
  /-- The content identifier and the value of each record. -/
  records : Option (Table String (String × Json))
  /-- The requests that have arrived, the newest first. -/
  arrivals : List Arrival

namespace Server

/-- The end of the path at which records are asked for. -/
def recordPath : String := "/xrpc/com.atproto.repo.getRecord"

/-- The response about a record. -/
def recordResponse (records : Table String (String × Json)) (query : List (String × String)) :
    Response :=
  let part (name : String) : String := (query.lookup name).getD ""
  let uri := (RecordUri.mk (part "repo") (part "collection") (part "rkey")).render
  match records.find? uri with
  | some (cid, value) =>
    ⟨200, (Json.object [("uri", .string uri), ("cid", .string cid), ("value", value)]).compact⟩
  | none => ⟨400, (Json.object [("error", .string "RecordNotFound")]).compact⟩

/-- A queue after its first response has been used: the last one stays. -/
def used : List Response → List Response
  | _ :: b :: rest => b :: rest
  | rest => rest

/-- Answers a request for a path. -/
def respond (s : Server) (r : Request) (path : String) : Response × Server :=
  match s.routes.find? path, s.records with
  | some (a :: rest), _ => (a, { s with routes := s.routes.insert path (used (a :: rest)) })
  | _, some records =>
    (if Text.hasEnd recordPath path then recordResponse records r.query else ⟨404, ""⟩, s)
  | _, none => (⟨404, ""⟩, s)

/-- The transport that reaches the server and nothing else. -/
def transport : Transport Server where
  send r s :=
    match pathOn? s.host r.url with
    | some path =>
      if s.listening then
        let (answer, s) := s.respond r path
        (some answer, { s with arrivals := ⟨r.target path, r.userAgent⟩ :: s.arrivals })
      else (none, s)
    | none => (none, s)

end Server

end PaperIndex.Http
