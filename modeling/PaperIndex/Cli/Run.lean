import PaperIndex.Application
import PaperIndex.Cli.Arguments
import PaperIndex.Cli.Text
import PaperIndex.Config
import PaperIndex.Database.Session
import PaperIndex.Json.Print
import PaperIndex.Metrics.Engine
import PaperIndex.Sync.Remote

/-! # Running commands

A command reads its configuration, then its files, and opens the database last; a task works on the
open database and the network. What happens depends on nothing but the machine that the command is
run on: its files, databases, network and clock. -/

namespace PaperIndex.Cli

/-- How a command ends. -/
inductive Ending
  | done
  /-- It fails, with the cause beneath the complaint if there is one. -/
  | failed (complaint : String) (cause : Option String)
  /-- It stops at an instant without a date. -/
  | crashed
deriving DecidableEq, Repr

/-- What a command prints and how it ends. -/
structure Outcome where
  out : String
  ending : Ending
deriving DecidableEq, Repr

/-- The machine that a command is run on. -/
structure Machine (ω : Type) where
  disk : Files.Disk Database.Content
  /-- The size of the database file. -/
  databaseSize : Nat
  network : ω
  now : Int
  /-- A number from which fresh names are made. -/
  seed : Nat

/-- What a task works on. -/
structure Desk (ω : Type) where
  database : Database
  network : ω

/-! ### Outcomes -/

/-- A text of lines. -/
def linesText (lines : List String) : String := String.join (lines.map (· ++ "\n"))

/-- Prints lines. -/
def say (lines : List String) : Outcome := ⟨linesText lines, .done⟩

/-- Prints a value. -/
def sayJson (j : Json) : Outcome := say [j.indented]

/-- The cause beneath an error. -/
def causeOf : IndexError → Option String
  | .transient cause => some cause.message
  | _ => none

/-- Fails with an error. -/
def fail (e : IndexError) : Outcome := ⟨"", .failed e.message (causeOf e)⟩

/-- Fails with a complaint about an error. -/
def complain (complaint : String) (e : IndexError) : Outcome :=
  ⟨"", .failed complaint (some e.message)⟩

/-- Prints what comes of a result, or fails with its error. -/
def report {α : Type} (f : α → Outcome) : Except IndexError α → Outcome
  | .ok a => f a
  | .error e => fail e

/-- Prints what comes of a result, or fails with a complaint about its error. -/
def reportAs {α : Type} (complaint : String) (f : α → Outcome) : Except IndexError α → Outcome
  | .ok a => f a
  | .error e => complain complaint e

/-- The value of an error. -/
def errorJson (e : IndexError) : Json :=
  .object [("error", .object [("code", .string e.code), ("message", .string e.message)])]

/-- Prints a refresh, or its error before failing with it. -/
def reportRefresh (uri : String) : Except IndexError Sync.Refresh → Outcome
  | .ok r => sayJson r.toJson
  | .error e => { complain ("Failed to refresh " ++ uri) e with
      out := linesText [(errorJson e).indented] }

/-- Prints a sweep. -/
def reportSweep : Except Sync.ScanStop Sync.Report → Outcome
  | .ok r => say (sweepLines r)
  | .error (.failed e) => fail e
  | .error .beforeDates => ⟨"", .crashed⟩

/-! ### Tasks -/

/-- The stores of a database. -/
structure Stores where
  cache : Cache.Store Cache.Relational
  counters : Counter.Store Counter.Relational
  summaries : Metrics.Sink (Table String Metrics.SummaryRow)
  graph : Graph.Store Graph.Relational

/-- The stores of a database that may be written or only be read. -/
def Stores.of (isWritable : Bool) : Stores :=
  if isWritable then
    ⟨Cache.Relational.store, Counter.Relational.store, Metrics.relationalSink,
      Graph.Relational.store⟩
  else
    ⟨Cache.Relational.store.readOnly, Counter.Relational.store.readOnly, .readOnly,
      Graph.Relational.store.readOnly⟩

section

variable {ω : Type} (t : Http.Transport ω) (c : Config) (s : Stores)

/-- The engine for records. -/
def syncEngine : Sync.Engine Cache.Relational ω :=
  (Sync.Engine.withUsualLimit s.cache
    ((Remote.Client.of c.plcDirectory c.userAgent).repository t)).withScanLimit c.sweepLimit

/-- The engine for engagement. -/
def metricsEngine : Metrics.Engine Counter.Relational (Table String Metrics.SummaryRow) :=
  (Metrics.Engine.withUsualLimit s.counters (some s.summaries)).withMaxTrending c.maxTrending

/-- The engine for citations. -/
def citationEngine : Citations.Engine Graph.Relational :=
  (Citations.Engine.withUsualLimits s.graph).withLimits c.defaultPageLimit c.maxPageLimit

/-- The index as a whole. -/
def application : Application Cache.Relational ω Graph.Relational :=
  ⟨syncEngine t c s, citationEngine c s, c.retry⟩

namespace Desk

variable (d : Desk ω)

/-- What the engine for records works on. -/
def records : Sync.State Cache.Relational ω := ⟨d.database.cache, d.network⟩

/-- The desk after work on records. -/
def withRecords (st : Sync.State Cache.Relational ω) : Desk ω :=
  ⟨{ d.database with cache := st.cache }, st.world⟩

/-- The desk after work on the graph. -/
def withGraph (g : Graph.Relational) : Desk ω := { d with database.graph := g }

/-- The desk after work on counters. -/
def withMetrics (st : Metrics.State Counter.Relational (Table String Metrics.SummaryRow)) :
    Desk ω :=
  { d with database.counters := st.counters, database.summaries := st.summaries }

end Desk

/-- Prints nothing. -/
def silent (_ : Unit) : Outcome := ⟨"", .done⟩

/-- The age in milliseconds, as far as 64 bits reach. -/
def ageMillis (seconds : Nat) : Int :=
  min (min (seconds * 1000) (Word.greatest 64)) (Word.greatest 63)

/-- Does a task at an instant. -/
def runTask (now : Int) (seed : Nat) (task : Task) (d : Desk ω) : Outcome × Desk ω :=
  let instant := Time.told now
  let sync := syncEngine t c s
  let metrics := metricsEngine c s
  let citations := citationEngine c s
  let app := application t c s
  let counted : Metrics.State Counter.Relational (Table String Metrics.SummaryRow) :=
    ⟨d.database.counters, d.database.summaries, seed⟩
  let applied (r : Outcome × Application.State Cache.Relational ω Graph.Relational) :
      Outcome × Desk ω :=
    (r.1, (d.withRecords r.2.records).withGraph r.2.graph)
  match task with
  | .index uri server =>
    let (r, st) := app.index instant uri server ⟨d.records, d.database.graph⟩
    applied (reportAs ("Failed to index " ++ uri) (fun record =>
      say ["Indexed " ++ uri ++ " (" ++ record.typeName ++ ")"]) r, st)
  | .delete uri =>
    let (r, st) := app.delete uri ⟨d.records, d.database.graph⟩
    applied (reportAs ("Failed to delete " ++ uri) (fun _ => say ["Deleted " ++ uri]) r, st)
  | .check uri =>
    let (r, st) := sync.check uri d.records
    (sayJson r.toJson, d.withRecords st)
  | .refresh uri retry =>
    if retry then
      -- The fetches of the client take no time.
      let (run, st) := c.retry.run (fun st =>
        let (r, st) := sync.refresh instant uri st
        (⟨r, ⟨0⟩⟩, st)) d.records
      (reportRefresh uri run.result, d.withRecords st)
    else
      let (r, st) := sync.refresh instant uri d.records
      (reportRefresh uri r, d.withRecords st)
  | .sweep maxAge limit =>
    let age := ageMillis (maxAge.getD c.staleAfterSeconds)
    let (r, st) := sync.sweep instant age (limit.getD c.sweepLimit) d.records
    (reportSweep r, d.withRecords st)
  | .addServer endpoint =>
    let (r, st) := sync.registerServer instant endpoint d.records
    (report (fun endpoint => say ["Registered " ++ endpoint]) r, d.withRecords st)
  | .listServers => (report (fun servers => say (serverLines servers)) (sync.servers d.records), d)
  | .record event =>
    let (r, st) := metrics.record now [event] counted
    (reportAs ("Failed to record event for " ++ event.subject) silent r, d.withMetrics st)
  | .recordAll events =>
    let (r, st) := metrics.record now events counted
    (report (fun _ => say ["Recorded " ++ toString events.length ++ " events."]) r,
      d.withMetrics st)
  | .summary uri =>
    (report (fun s => sayJson s.toJson) (metrics.summary now uri d.database.counters), d)
  | .trending window limit =>
    (report (fun ts => sayJson (.array (ts.map Metrics.Trend.toJson)))
      (metrics.trending now window limit d.database.counters), d)
  | .flush =>
    let (r, st) := metrics.flush now counted
    (report (fun n => say ["Flushed metrics for " ++ toString n ++ " subjects."]) r,
      d.withMetrics st)
  | .register uri =>
    let (r, g) := citations.register uri d.database.graph
    (report (fun _ => say ["Registered " ++ uri]) r, d.withGraph g)
  | .submit cs =>
    let (r, g) := citations.submit instant cs d.database.graph
    (report (fun o => sayJson o.toJson) r, d.withGraph g)
  | .citing uri page =>
    (report (fun p => sayJson p.toJson) (citations.citing uri page d.database.graph), d)
  | .references uri page =>
    (report (fun p => sayJson p.toJson) (citations.references uri page d.database.graph), d)
  | .coCited uri threshold =>
    (report (fun cs => sayJson (.array (cs.map CoCitation.toJson)))
      (citations.coCited uri threshold d.database.graph), d)
  | .deleteCitations uri =>
    let (r, g) := citations.deleteFor uri d.database.graph
    (report (fun n => say
      ["Deleted " ++ toString n ++ " citations touching " ++ uri]) r, d.withGraph g)

end

/-! ### Commands -/

/-- Whether a text can be sent as the value of a header. -/
def isHeaderText (s : String) : Bool :=
  s.toList.all fun c => c = '\t' || (0x20 ≤ c.toNat && c.toNat ≠ 0x7F)

/-- Fails with a complaint and a cause. -/
def failWith (complaint : String) (cause : Option String) : Outcome :=
  ⟨"", .failed complaint cause⟩

/-- Fails because a database cannot be opened. -/
def failOpening (fault : Database.OpenFault) : Outcome := failWith fault.message fault.cause?

/-- Fails because a database refuses something. -/
def failRefused (r : Refusal) : Outcome := failOpening (.refused r)

namespace Machine

variable {ω : Type}

/-- The text of a file. -/
def fileText (m : Machine ω) (path : String) : Except Files.Fault String := do
  let content ← m.disk.read path
  content.text?

/-- Reads data from a file; `what` says what the file should hold. -/
def readData {α : Type} (m : Machine ω) (what : String)
    (read : Json.Draft → Json.Decoded (List α)) (path : String) : Except Outcome (List α) :=
  match m.fileText path with
  | .error fault =>
    .error (failWith ("Failed to read " ++ what ++ " file: " ++ path) (some fault.message))
  | .ok text =>
    match Json.decodeText read text with
    | .error _ => .error (failWith ("Failed to parse " ++ what ++ " file: " ++ path) none)
    | .ok items => .ok items

/-- Opens the database of a configuration for some work, which may leave another machine behind. -/
def withSession (m : Machine ω) (c : Config)
    (work : Database.Session → Machine ω → Outcome × Machine ω) : Outcome × Machine ω :=
  let (r, disk) := Database.openPath c.databasePath m.disk
  match r with
  | .error fault => (failOpening fault, { m with disk })
  | .ok session => work session { m with disk }

/-- Opens a database with all relations for some work, which may change it. -/
def withDatabase (m : Machine ω) (c : Config)
    (work : Bool → Database → Outcome × Database × ω) : Outcome × Machine ω :=
  m.withSession c fun session m =>
    match session.relations with
    | .error r => (failRefused r, m)
    | .ok db =>
      let (outcome, db, network) := work session.isWritable db
      (outcome, { m with disk := session.keep (some db) m.disk, network })

/-- Does a task. -/
def runTask (m : Machine ω) (t : Http.Transport ω) (c : Config) (task : Task) :
    Outcome × Machine ω :=
  m.withDatabase c fun isWritable db =>
    if isHeaderText c.userAgent then
      let (outcome, d) :=
        Cli.runTask t c (.of isWritable) m.now m.seed task ⟨db, m.network⟩
      (outcome, d.database, d.network)
    else (failWith "builder error" (some "failed to parse header value"), db, m.network)

/-- Shows what a database holds. -/
def runStats (m : Machine ω) (c : Config) : Outcome × Machine ω :=
  m.withSession c fun session m =>
    match session.database with
    | some db => (say (overviewLines c.databasePath m.databaseSize m.now (db.overview m.now)), m)
    | none => (failRefused (.noRelation "indexed_records"), m)

/-- Runs a command under a configuration. -/
def runCommand (m : Machine ω) (t : Http.Transport ω) (c : Config) (command : Command) :
    Outcome × Machine ω :=
  match command with
  | .create => m.withDatabase c fun _ db =>
    (say ["Database initialized successfully."], db, m.network)
  | .stats => m.runStats c
  | .task task => m.runTask t c task
  | .recordFile path =>
    match m.readData "events" (Json.readList Metrics.Event.read) path with
    | .error outcome => (outcome, m)
    | .ok events => m.runTask t c (.recordAll events)
  | .submitFile path =>
    match m.readData "citations" (Json.readList (Citation.read .text)) path with
    | .error outcome => (outcome, m)
    | .ok citations => m.runTask t c (.submit citations)
  | .trendingOf label limit =>
    match Metrics.Window.ofLabel label with
    | .error fault => (fail (.validation fault), m)
    | .ok window => m.runTask t c (.trending window limit)

/-- Runs what is asked for. -/
def run (m : Machine ω) (t : Http.Transport ω) (i : Invocation) : Outcome × Machine ω :=
  let text := m.fileText i.configPath
  match Config.load i.configPath text.toOption with
  | .error e =>
    let cause := match e, text with
      | .unreadable _, .error fault => some fault.message
      | _, _ => none
    (failWith e.message cause, m)
  | .ok c => m.runCommand t c i.command

end Machine

/-- The code with which a program ends. -/
def Ending.exitCode : Ending → UInt32
  | .done => 0
  | .failed _ _ => 1
  | .crashed => 101

end PaperIndex.Cli
