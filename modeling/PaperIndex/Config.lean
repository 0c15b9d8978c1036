import PaperIndex.Retry
import PaperIndex.Text.Pieces
import PaperIndex.Toml.Document
import PaperIndex.Word

/-! # Configuration

A configuration is read from a TOML document. Only the section with the path of the database has to
be there; fields that are missing elsewhere take their usual values. A section may also be written
as an array of the values of its fields, and a date or a time stands for a section without any of
them. -/

namespace PaperIndex

/-- A configuration. -/
structure Config where
  databasePath : String
  plcDirectory : String
  timeoutSeconds : Nat
  userAgent : String
  staleAfterSeconds : Nat
  sweepLimit : Nat
  /-- When fetches are retried. -/
  retry : RetryPolicy
  maxTrending : Nat
  defaultPageLimit : Nat
  maxPageLimit : Nat
deriving DecidableEq, Repr

/-- Why there is no configuration. -/
inductive ConfigError
  | unreadable (path : String)
  /-- The text is no document, or a field has no value of its type. -/
  | malformed
  | noTimeout
  | directoryScheme (directory : String)
  | noSweepLimit
  | noAttemptTimeout
  | trendingRange
  | noPageLimit
  | pageLimitOrder (default max : Nat)
deriving DecidableEq, Repr

/-- The wording of a configuration error. -/
def ConfigError.message : ConfigError → String
  | .unreadable path => "Failed to read config file: " ++ path
  | .malformed => "Failed to parse config file"
  | .noTimeout => "repository.timeout_secs must be > 0"
  | .directoryScheme directory =>
    "repository.plc_directory must be an http(s) URL, got '" ++ directory ++ "'"
  | .noSweepLimit => "sync.sweep_limit must be > 0"
  | .noAttemptTimeout => "resilience.attempt_timeout_secs must be > 0"
  | .trendingRange => "metrics.max_trending_limit must be in [1, 1000]"
  | .noPageLimit => "citations.default_page_limit must be >= 1"
  | .pageLimitOrder default max =>
    "citations.default_page_limit (" ++ toString default ++
      ") must not exceed citations.max_page_limit (" ++ toString max ++ ")"

namespace Config

/-- The usual configuration for a database. -/
def withPath (path : String) : Config where
  databasePath := path
  plcDirectory := "https://plc.directory"
  timeoutSeconds := 10
  userAgent := "eprint-index"
  staleAfterSeconds := 86400
  sweepLimit := 500
  retry := ⟨3, 250, 8000, 15⟩
  maxTrending := 100
  defaultPageLimit := 50
  maxPageLimit := 100

/-- The usual configuration. -/
def minimal : Config := withPath "./data/epx.sqlite"

/-! ### Reading -/

/-- The value of a text. -/
def readText : Toml → Option String
  | .string s => some s
  | _ => none

/-- The value of a natural number of so many bits. -/
def readNat (bits : Nat) : Toml → Option Nat
  | .integer n => if Word.isUnsigned bits n then some n.toNat else none
  | _ => none

/-- The values of a section by the names of its fields, in the order in which they are declared. -/
def fieldsOf (names : List String) : Toml → Option (List (String × Toml))
  | .table fields => some fields
  | .array items => some (names.zip items)
  | .moment _ => some []
  | _ => none

/-- The values of a section of a document; one that is missing has none. -/
def sectionOf (document : List (String × Toml)) (name : String) (names : List String) :
    Option (List (String × Toml)) :=
  match document.lookup name with
  | some v => fieldsOf names v
  | none => some []

/-- The value of a field, or the given one if the field is missing. -/
def valueOr {α : Type} (default : α) (read : Toml → Option α) (fields : List (String × Toml))
    (name : String) : Option α :=
  match fields.lookup name with
  | some v => read v
  | none => some default

/-- The configuration of a document. -/
def ofDocument (document : List (String × Toml)) : Option Config := do
  let db ← sectionOf document "db" ["path"]
  let path ← (← db.lookup "path") |> readText
  let usual := withPath path
  let repository ← sectionOf document "repository" ["plc_directory", "timeout_secs", "user_agent"]
  let sync ← sectionOf document "sync" ["stale_after_secs", "sweep_limit"]
  let resilience ← sectionOf document "resilience"
    ["max_retries", "base_delay_ms", "max_delay_ms", "attempt_timeout_secs"]
  let metrics ← sectionOf document "metrics" ["max_trending_limit"]
  let citations ← sectionOf document "citations" ["default_page_limit", "max_page_limit"]
  return {
    databasePath := path
    plcDirectory := ← valueOr usual.plcDirectory readText repository "plc_directory"
    timeoutSeconds := ← valueOr usual.timeoutSeconds (readNat 64) repository "timeout_secs"
    userAgent := ← valueOr usual.userAgent readText repository "user_agent"
    staleAfterSeconds := ← valueOr usual.staleAfterSeconds (readNat 64) sync "stale_after_secs"
    sweepLimit := ← valueOr usual.sweepLimit (readNat 64) sync "sweep_limit"
    retry := {
      maxRetries := ← valueOr usual.retry.maxRetries (readNat 32) resilience "max_retries"
      baseDelay := ← valueOr usual.retry.baseDelay (readNat 64) resilience "base_delay_ms"
      maxDelay := ← valueOr usual.retry.maxDelay (readNat 64) resilience "max_delay_ms"
      limitSeconds :=
        ← valueOr usual.retry.limitSeconds (readNat 64) resilience "attempt_timeout_secs" }
    maxTrending := ← valueOr usual.maxTrending (readNat 64) metrics "max_trending_limit"
    defaultPageLimit :=
      ← valueOr usual.defaultPageLimit (readNat 32) citations "default_page_limit"
    maxPageLimit := ← valueOr usual.maxPageLimit (readNat 32) citations "max_page_limit" }

/-- The first fault of a configuration. -/
def fault? (c : Config) : Option ConfigError :=
  if c.timeoutSeconds = 0 then some .noTimeout
  else if !Text.hasLead "http://" c.plcDirectory && !Text.hasLead "https://" c.plcDirectory then
    some (.directoryScheme c.plcDirectory)
  else if c.sweepLimit = 0 then some .noSweepLimit
  else if c.retry.limitSeconds = 0 then some .noAttemptTimeout
  else if c.maxTrending = 0 ∨ 1000 < c.maxTrending then some .trendingRange
  else if c.defaultPageLimit = 0 then some .noPageLimit
  else if c.maxPageLimit < c.defaultPageLimit then
    some (.pageLimitOrder c.defaultPageLimit c.maxPageLimit)
  else none

/-- The configuration of a text. -/
def ofText (s : String) : Except ConfigError Config :=
  match (Toml.parse s).bind ofDocument with
  | none => .error .malformed
  | some c =>
    match c.fault? with
    | some e => .error e
    | none => .ok c

/-- The configuration in a file, whose text is `none` if it cannot be read. -/
def load (path : String) (text : Option String) : Except ConfigError Config :=
  match text with
  | none => .error (.unreadable path)
  | some s => ofText s

end Config

end PaperIndex
