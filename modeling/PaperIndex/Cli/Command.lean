import PaperIndex.Citations.Submission
import PaperIndex.Metrics.Event
import PaperIndex.Metrics.Window

/-! # Commands

What the command line can be asked to do. A task has all that it needs and works on an open
database; some commands still have to read a file or a label first. -/

namespace PaperIndex.Cli

/-- Work on an open database. -/
inductive Task
  /-- Fetches a record, perhaps from a given server, and indexes it. -/
  | index (uri : String) (server : Option String)
  | delete (uri : String)
  | check (uri : String)
  /-- Brings an entry up to date; transient failures may be retried. -/
  | refresh (uri : String) (retry : Bool)
  /-- Sweeps entries of an age in seconds, up to a limit. -/
  | sweep (maxAge limit : Option Nat)
  | addServer (endpoint : String)
  | listServers
  | record (event : Metrics.Event)
  | recordAll (events : List Metrics.Event)
  | summary (uri : String)
  | trending (window : Metrics.Window) (limit : Nat)
  | flush
  | register (uri : String)
  | submit (citations : List Citation)
  | citing (uri : String) (page : Citations.PageRequest)
  | references (uri : String) (page : Citations.PageRequest)
  | coCited (uri : String) (threshold : Nat)
  | deleteCitations (uri : String)

/-- What is asked for. -/
inductive Command
  /-- Creates the relations of the database. -/
  | create
  | stats
  | task (t : Task)
  /-- Records the events in a file. -/
  | recordFile (path : String)
  /-- Submits the citations in a file. -/
  | submitFile (path : String)
  /-- Ranks the subjects of a window with a label. -/
  | trendingOf (label : String) (limit : Nat)

/-- A command and the path of the configuration. -/
structure Invocation where
  configPath : String
  command : Command

end PaperIndex.Cli
