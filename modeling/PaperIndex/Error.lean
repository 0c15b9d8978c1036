import PaperIndex.Json.Decode

/-! # Errors

An operation of the index fails in one of three ways: something does not exist, a store or a server
could not be reached, or the input is not acceptable. Only the second way is worth another attempt.
Every failure keeps its cause; the wording of a cause is given by `message` alone. -/

namespace PaperIndex

/-- The kind of value that a counter key holds. -/
inductive CounterKind
  | tally
  | sketch
  | scores
deriving DecidableEq, Repr

/-- The word for a kind of value. -/
def CounterKind.word : CounterKind → String
  | .tally => "counter"
  | .sketch => "hyperloglog"
  | .scores => "sorted set"

/-- Why the database refuses what it is asked. -/
inductive Refusal
  | noRelation (name : String)
  | unknownSystem (name : String)
  | unknownAuthority (name : String)
  /-- The database may only be read. -/
  | readOnly
  /-- The file cannot be read. -/
  | unreadable
  /-- The file cannot be opened. -/
  | unopened
  /-- The file holds something else. -/
  | notDatabase
deriving DecidableEq, Repr

/-- The code and the wording of a refusal. -/
def Refusal.describe : Refusal → Nat × String
  | .noRelation name => (1, "no such table: " ++ name)
  | .unknownSystem name => (1, "no such vfs: " ++ name)
  | .unknownAuthority name => (1, "invalid uri authority: " ++ name)
  | .readOnly => (8, "attempt to write a readonly database")
  | .unreadable => (266, "disk I/O error")
  | .unopened => (14, "unable to open database file")
  | .notDatabase => (26, "file is not a database")

/-- The wording of a refusal with its code. -/
def Refusal.message (r : Refusal) : String :=
  "(code: " ++ toString r.describe.1 ++ ") " ++ r.describe.2

/-- The complaint about a refusal. -/
def Refusal.complaint (r : Refusal) : String := "error returned from database: " ++ r.message

/-- Why a store refuses a call. -/
inductive StoreError
  /-- The key holds another kind of value. -/
  | wrongKind (key : String) (found wanted : CounterKind)
  /-- The tally would leave the integers of 64 bits. -/
  | overflow (key : String)
  /-- The call has been made to fail. -/
  | down (call : String)
  /-- The sink does not take snapshots of this subject. -/
  | rejected (uri : String)
  /-- A stored instant has no date. -/
  | undated (instant : Int)
  /-- A stored tally is no integer. -/
  | notInteger
  /-- The database refuses the call. -/
  | refused (r : Refusal)
deriving DecidableEq, Repr

/-- The wording of a store error. Behind that of `notInteger`, the names of the two types that are at
odds are left out. -/
def StoreError.message : StoreError → String
  | .wrongKind key found wanted =>
    "WRONGTYPE: key '" ++ key ++ "' holds a " ++ found.word ++ ", not a " ++ wanted.word
  | .overflow key => "counter '" ++ key ++ "' would overflow"
  | .down call => call ++ " failed"
  | .rejected uri => "snapshot write rejected for " ++ uri
  | .undated instant => "timestamp out of range: " ++ toString instant
  | .notInteger => "error occurred while decoding column 0: mismatched types"
  | .refused r => r.complaint

/-- Why input is not acceptable. -/
inductive InputFault
  /-- The URI does not start with `at://`. -/
  | notRecordUri (uri : String)
  /-- The URI does not have three parts. -/
  | recordUriShape (uri : String)
  | noRecordType
  | unknownRecordType (type : String)
  /-- The body of the record does not fit its type. -/
  | malformedRecord (type : String) (cause : Json.DecodeError)
  | emptyTitle
  | noAuthors
  | emptyReview
  | emptyCid
  | negativeAge
  /-- The endpoint is no `http` or `https` URL. -/
  | endpointScheme (endpoint : String)
  /-- The endpoint names no host. -/
  | endpointHost (endpoint : String)
  | emptySubject
  /-- The dwell time is beyond the integers of 64 bits. -/
  | dwellRange
  | unknownWindow (label : String)
  | trendingLimit (max : Nat)
  | noSink
  | emptyUri
  | pageLimit (max : Nat)
  | minCoCitations
  /-- A reason in the words of the caller. -/
  | stated (text : String)
deriving DecidableEq, Repr

/-- The wording of a decoding error. -/
def Json.DecodeError.message : Json.DecodeError → String
  | .text .malformed => "malformed text"
  | .text .unfinished => "unfinished text"
  | .data m => m.message

/-- The wording of a fault. -/
def InputFault.message : InputFault → String
  | .notRecordUri uri => "not an at:// uri: " ++ uri
  | .recordUriShape uri => "expected at://authority/collection/rkey, got: " ++ uri
  | .noRecordType => "record has no $type"
  | .unknownRecordType type => "unrecognized record type: " ++ type
  | .malformedRecord type cause => "malformed " ++ type ++ " record: " ++ cause.message
  | .emptyTitle => "eprint title must not be empty"
  | .noAuthors => "eprint must list at least one author"
  | .emptyReview => "review text must not be empty"
  | .emptyCid => "cid must not be empty"
  | .negativeAge => "max age must not be negative"
  | .endpointScheme endpoint => "PDS endpoint must be an http(s) URL: " ++ endpoint
  | .endpointHost endpoint => "PDS endpoint has no host: " ++ endpoint
  | .emptySubject => "metric event has an empty subject uri"
  | .dwellRange => "dwell time out of range"
  | .unknownWindow label =>
    "unknown trending window '" ++ label ++ "': must be 24h, 7d, or 30d"
  | .trendingLimit max => "trending limit must be between 1 and " ++ toString max
  | .noSink => "no metrics sink configured"
  | .emptyUri => "uri must not be empty"
  | .pageLimit max => "limit must be between 1 and " ++ toString max
  | .minCoCitations => "minCoCitations must be at least 1"
  | .stated text => text

/-- Why an authoritative record could not be fetched. -/
inductive FetchError
  /-- The record URI is not acceptable. -/
  | badUri (fault : InputFault)
  /-- The authority is no identifier that can be resolved. -/
  | authority (did : String)
  | resolutionFailed (url : String)
  | resolutionStatus (did status : String)
  | badDocument (did : String)
  /-- The document of the identifier lists no server. -/
  | noServer (did : String)
  | requestFailed (url : String)
  | rejected (uri text : String)
  | answerStatus (uri status body : String)
  | badResponse (uri : String)
  | noCid (uri : String)
  /-- A reason in the words of the repository. -/
  | stated (text : String)
deriving DecidableEq, Repr

/-- The wording of a fetch error. -/
def FetchError.message : FetchError → String
  | .badUri fault => "invalid input: " ++ fault.message
  | .authority did => "cannot resolve authority '" ++ did ++ "': expected did:plc or did:web"
  | .resolutionFailed url => "DID resolution request failed: " ++ url
  | .resolutionStatus did status => "DID resolution for " ++ did ++ " returned " ++ status
  | .badDocument did => "invalid DID document for " ++ did
  | .noServer did => "DID document for " ++ did ++ " lists no PDS"
  | .requestFailed url => "getRecord request failed: " ++ url
  | .rejected uri text => "getRecord " ++ uri ++ " rejected: " ++ text
  | .answerStatus uri status body => "getRecord " ++ uri ++ " returned " ++ status ++ ": " ++ body
  | .badResponse uri => "invalid getRecord response for " ++ uri
  | .noCid uri => "getRecord response for " ++ uri ++ " has no cid"
  | .stated text => text

/-- Why a store or a server could not be reached. -/
inductive Outage
  | store (e : StoreError)
  | fetch (e : FetchError)
  /-- The attempt took longer than its limit in seconds. -/
  | timedOut (seconds : Nat)
  /-- A store answered fewer reads than it was asked. -/
  | shortAnswer (got asked : Nat)
  /-- A reason in the words of the caller. -/
  | stated (text : String)
deriving DecidableEq, Repr

/-- The wording of a whole number of seconds. -/
def secondsText (n : Nat) : String := if n = 0 then "0ns" else toString n ++ "s"

/-- The wording of an outage. -/
def Outage.message : Outage → String
  | .store e => e.message
  | .fetch e => e.message
  | .timedOut seconds => "attempt timed out after " ++ secondsText seconds
  | .shortAnswer got asked =>
    "counter store answered " ++ toString got ++ " of " ++ toString asked ++ " reads"
  | .stated text => text

/-- How an operation of the index fails. -/
inductive IndexError
  /-- The record does not exist. -/
  | notFound (uri : String)
  /-- A store or a server could not be reached. -/
  | transient (cause : Outage)
  /-- The input is not acceptable. -/
  | validation (fault : InputFault)
deriving DecidableEq, Repr

namespace IndexError

/-- Only an outage is worth another attempt. -/
def isRetryable : IndexError → Bool
  | .transient _ => true
  | _ => false

/-- The short code of an error. -/
def code : IndexError → String
  | .notFound _ => "NotFound"
  | .transient _ => "TransientFetchError"
  | .validation _ => "ValidationError"

/-- The wording of an error. -/
def message : IndexError → String
  | .notFound uri => "not found: " ++ uri
  | .transient cause => "transient failure: " ++ cause.message
  | .validation fault => "invalid input: " ++ fault.message

theorem isRetryable_iff {e : IndexError} :
    e.isRetryable = true ↔ ∃ cause, e = .transient cause := by
  cases e <;> simp [isRetryable]

end IndexError

end PaperIndex
