import PaperIndex.Counter.Basic
import PaperIndex.Metrics.Event
import PaperIndex.Metrics.Keys
import PaperIndex.Metrics.Summary
import PaperIndex.Text.Blank

/-! # Counting engagement

Events are turned into one pipeline per batch, after all of them have been checked. A view also
enters a set for each window, scored by its instant, under a fresh member name; the sets lose what
has left the window and expire with it. Summaries, rankings and the flush only read. -/

namespace PaperIndex.Metrics

open Counter (Op Query Pipeline)

/-- The stores that events are counted in, the limit on rankings, and the tokens that tell the
members of a window's set apart. -/
structure Engine (σ ς : Type) where
  counters : Counter.Store σ
  sink : Option (Sink ς)
  maxTrending : Nat
  /-- The token that is drawn for an event, given by its number, and a window. -/
  token : Nat → Window → String

/-- What the engine changes. -/
structure State (σ ς : Type) where
  counters : σ
  summaries : ς
  /-- The number of the next event. -/
  fresh : Nat
deriving DecidableEq, Repr

/-- A subject and its views within a window. -/
structure Trend where
  uri : String
  score : Nat
deriving DecidableEq, Repr

/-- The value of a subject in a ranking. -/
def Trend.toJson (t : Trend) : Json :=
  .object [("subjectUri", .string t.uri), ("score", .int t.score)]

/-- The usual limit on rankings. -/
def defaultMaxTrending : Nat := 100

/-! ### Events -/

/-- The checks that an event passes before anything is changed. -/
def checkEvent (e : Event) : Except InputFault Unit :=
  if Text.isBlankText e.subject then .error .emptySubject
  else match e with
    | .dwell _ millis => if millis < Word.count 63 then .ok () else .error .dwellRange
    | _ => .ok ()

/-- Adds one to a tally. -/
def addOne (key : String) : Op := .add key 1

/-- Adds the actor to a sketch, if there is one. -/
def observeActor (key : String) (actor : Option String) : List Op :=
  actor.toList.map fun a => .observe key a

/-- The name of the member with a token. -/
def memberName (now : Int) (token : String) : String := toString now ++ ":" ++ token

/-- A view enters the set of a window, which moves on. Readings of the clock are meant whose window
lies within 64 bits, as it does around every instant with a date. -/
def enterWindow (now : Int) (token : Window → String) (uri : String) (w : Window) : List Op :=
  let key := Keys.window w uri
  [.place key (memberName now (token w)) now, .trim key (now - w.span),
   .expire key (now + w.span)]

/-- The changes for one event. -/
def opsOf (now : Int) (token : Window → String) : Event → List Op
  | .view uri actor =>
    addOne (Keys.views uri) :: observeActor (Keys.viewers uri) actor ++
      Window.all.flatMap (enterWindow now token uri)
  | .download uri actor =>
    addOne (Keys.downloads uri) :: observeActor (Keys.downloaders uri) actor
  | .dwell uri millis => [.add (Keys.dwellTotal uri) millis, addOne (Keys.dwellCount uri)]
  | .searchClick uri => [addOne (Keys.searchClicks uri)]
  | .searchDownload uri => [addOne (Keys.searchDownloads uri)]

/-- The changes for the events of a batch, numbered from `fresh` on. -/
def batchOps (now : Int) (token : Nat → Window → String) (fresh : Nat) (events : List Event) :
    List Op :=
  (events.zipIdx fresh).flatMap fun r => opsOf now (token r.2) r.1

/-- Checks all events of a batch. -/
def checkBatch : List Event → Except InputFault Unit
  | [] => .ok ()
  | e :: es => do checkEvent e; checkBatch es

/-! ### Questions -/

/-- The question for the views within a window that ends now, for readings of the clock as in
`enterWindow`. -/
def windowQuery (now : Int) (uri : String) (w : Window) : Query :=
  .within (Keys.window w uri) (now - w.span + 1) now

/-- The questions for a summary. -/
def summaryQueries (now : Int) (uri : String) : List Query :=
  [.tally (Keys.views uri), .count (Keys.viewers uri), .tally (Keys.downloads uri),
   .count (Keys.downloaders uri), .tally (Keys.searchClicks uri),
   .tally (Keys.searchDownloads uri), .tally (Keys.dwellTotal uri),
   .tally (Keys.dwellCount uri)] ++ Window.all.map (windowQuery now uri)

/-- The summary made of the answers to its questions, if there are as many. -/
def summaryOf (uri : String) : List Nat → Option Summary
  | [views, viewers, downloads, downloaders, clicks, searched, dwelled, samples, day, week,
      month] =>
    some {
      uri
      totalViews := views
      uniqueViews := viewers
      totalDownloads := downloads
      uniqueDownloads := downloaders
      viewsOfDay := day
      viewsOfWeek := week
      viewsOfMonth := month
      searchClicks := clicks
      searchDownloads := searched
      dwellSamples := samples
      averageDwell := if samples = 0 then none else some (dwelled / samples) }
  | _ => none

/-- The order of a ranking: the greatest score first, then by URI. -/
def trendOrder (a b : Trend) : Bool := b.score < a.score || (a.score == b.score && a.uri ≤ b.uri)

/-- The failure of a store as the failure of an operation. -/
def stored {α : Type} (r : Except StoreError α) : Except IndexError α :=
  r.mapError fun e => .transient (.store e)

namespace Engine

variable {σ ς : Type}

/-- The engine with the usual limit on rankings. It draws the numbers of the events as tokens. -/
def withUsualLimit (counters : Counter.Store σ) (sink : Option (Sink ς)) : Engine σ ς :=
  ⟨counters, sink, defaultMaxTrending, fun number _ => toString number⟩

/-- Sets the limit on rankings, which is at least one. -/
def withMaxTrending (n : Nat) (e : Engine σ ς) : Engine σ ς := { e with maxTrending := max n 1 }

/-- Records a batch of events at once. An empty batch changes nothing. -/
def record (e : Engine σ ς) (now : Int) (events : List Event) (st : State σ ς) :
    Except IndexError Unit × State σ ς :=
  if events.isEmpty then (.ok (), st)
  else match checkBatch events with
    | .error fault => (.error (.validation fault), st)
    | .ok () =>
      let (r, counters) := e.counters.exec ⟨now, batchOps now e.token st.fresh events⟩ st.counters
      match r with
      | .ok () => (.ok (), { st with counters, fresh := st.fresh + events.length })
      | .error cause => (.error (.transient (.store cause)), { st with counters })

/-- The summary of a subject. -/
def summary (e : Engine σ ς) (now : Int) (uri : String) (counters : σ) :
    Except IndexError Summary := do
  let queries := summaryQueries now uri
  let answers ← stored (e.counters.read queries now counters)
  match summaryOf uri (answers.map Int.toNat) with
  | some s => return s
  | none => .error (.transient (.shortAnswer answers.length queries.length))

/-- The number of views of a subject. -/
def viewCount (e : Engine σ ς) (now : Int) (uri : String) (counters : σ) :
    Except IndexError Nat := do
  let answers ← stored (e.counters.read [.tally (Keys.views uri)] now counters)
  return (answers.head?.getD 0).toNat

/-- The subjects with the most views within a window, up to a limit. -/
def trending (e : Engine σ ς) (now : Int) (w : Window) (limit : Nat) (counters : σ) :
    Except IndexError (List Trend) := do
  if limit = 0 ∨ e.maxTrending < limit then
    .error (.validation (.trendingLimit e.maxTrending))
  else
    let lead := Keys.windowLead w
    let keys ← stored (e.counters.scan lead now counters)
    let uris := keys.filterMap (Text.after? lead)
    if uris.isEmpty then return []
    else
      let counts ← stored (e.counters.read (uris.map fun uri => windowQuery now uri w) now counters)
      let trends := (uris.zip counts).filterMap fun r =>
        if 0 < r.2 then some ⟨r.1, r.2.toNat⟩ else none
      return (trends.mergeSort trendOrder).take limit

/-- The subjects with a tally of views or of downloads, ascending. -/
def subjects (e : Engine σ ς) (now : Int) (counters : σ) : Except IndexError (List String) := do
  let viewed ← stored (e.counters.scan Keys.viewsLead now counters)
  let downloaded ← stored (e.counters.scan Keys.downloadsLead now counters)
  let viewed := (viewed.filterMap (Text.after? Keys.viewsLead)).filter fun rest =>
    !Keys.isWindowed rest
  let downloaded := downloaded.filterMap (Text.after? Keys.downloadsLead)
  return Counter.sortKeys (viewed ++ downloaded).eraseDups

/-- Gives the summary of a subject to the sink, and reports whether that succeeded. -/
def flushOne (e : Engine σ ς) (sink : Sink ς) (now : Int) (st : State σ ς) (uri : String) :
    Bool × State σ ς :=
  match e.summary now uri st.counters with
  | .error _ => (false, st)
  | .ok s =>
    let (r, summaries) := sink.persist s (Time.told now) st.summaries
    (r.toBool, { st with summaries })

/-- Gives the summaries of subjects to the sink, and counts those that it takes. -/
def flushAll (e : Engine σ ς) (sink : Sink ς) (now : Int) : List String → State σ ς →
    Nat × State σ ς
  | [], st => (0, st)
  | uri :: uris, st =>
    let (taken, st) := e.flushOne sink now st uri
    let (n, st) := e.flushAll sink now uris st
    (if taken then n + 1 else n, st)

/-- Gives the summaries of all subjects with views or downloads to the sink. -/
def flush (e : Engine σ ς) (now : Int) (st : State σ ς) : Except IndexError Nat × State σ ς :=
  match e.sink with
  | none => (.error (.validation .noSink), st)
  | some sink =>
    match e.subjects now st.counters with
    | .error err => (.error err, st)
    | .ok uris =>
      let (n, st) := e.flushAll sink now uris st
      (.ok n, st)

end Engine

end PaperIndex.Metrics
