import PaperIndex.Error
import PaperIndex.Json.Basic
import PaperIndex.Table
import PaperIndex.Time.Calendar

/-! # Summaries of subjects and where they are kept

A summary holds all counts of one subject at one instant. A sink keeps the last summary of each
subject: in memory as it is, or as a row of a relation, which also tells when it was written. -/

namespace PaperIndex.Metrics

open Time (Instant)

/-- The counts of a subject. -/
structure Summary where
  uri : String
  totalViews : Nat
  uniqueViews : Nat
  totalDownloads : Nat
  uniqueDownloads : Nat
  viewsOfDay : Nat
  viewsOfWeek : Nat
  viewsOfMonth : Nat
  searchClicks : Nat
  searchDownloads : Nat
  dwellSamples : Nat
  /-- The average dwell time in whole milliseconds, if there are samples. -/
  averageDwell : Option Nat
deriving DecidableEq, Repr

/-- The fields of a summary other than the average. -/
def Summary.countFields (s : Summary) : List (String × Json) :=
  [("uri", .string s.uri), ("totalViews", .int s.totalViews), ("uniqueViews", .int s.uniqueViews),
   ("totalDownloads", .int s.totalDownloads), ("uniqueDownloads", .int s.uniqueDownloads),
   ("views24h", .int s.viewsOfDay), ("views7d", .int s.viewsOfWeek),
   ("views30d", .int s.viewsOfMonth), ("searchClicks", .int s.searchClicks),
   ("searchDownloads", .int s.searchDownloads), ("dwellTimeSamples", .int s.dwellSamples)]

/-- The value of a summary, without an average if there is none. -/
def Summary.toJson (s : Summary) : Json :=
  .object (s.countFields ++ match s.averageDwell with
    | some n => [("avgDwellTimeMs", .int n)]
    | none => [])

/-- What a sink with states `ς` can do. -/
structure Sink (ς : Type) where
  /-- Replaces the summary of its subject. -/
  persist : Summary → Instant → ς → Except StoreError Unit × ς

/-- The sink that takes nothing. -/
def Sink.readOnly {ς : Type} : Sink ς where
  persist _ _ st := (.error (.refused .readOnly), st)

/-! ### In memory -/

/-- Summaries in memory, and the subjects whose summaries are refused. -/
structure SinkMemory where
  summaries : Table String Summary
  refused : List String
deriving DecidableEq

namespace SinkMemory

/-- The sink without summaries. -/
def empty : SinkMemory := ⟨.empty, []⟩

instance : Inhabited SinkMemory := ⟨empty⟩

/-- The sink in memory. -/
def sink : Sink SinkMemory where
  persist s _ m :=
    if s.uri ∈ m.refused then (.error (.rejected s.uri), m)
    else (.ok (), { m with summaries := m.summaries.insert s.uri s })

end SinkMemory

/-! ### As a relation -/

/-- The greatest integer of a column. -/
def maxColumn : Nat := Word.greatest 63

/-- The summary as it fits into columns. -/
def Summary.clamped (s : Summary) : Summary :=
  { s with
    totalViews := min s.totalViews maxColumn
    uniqueViews := min s.uniqueViews maxColumn
    totalDownloads := min s.totalDownloads maxColumn
    uniqueDownloads := min s.uniqueDownloads maxColumn
    viewsOfDay := min s.viewsOfDay maxColumn
    viewsOfWeek := min s.viewsOfWeek maxColumn
    viewsOfMonth := min s.viewsOfMonth maxColumn
    searchClicks := min s.searchClicks maxColumn
    searchDownloads := min s.searchDownloads maxColumn
    dwellSamples := min s.dwellSamples maxColumn
    averageDwell := s.averageDwell.map (min · maxColumn) }

/-- A summary and when it was written. -/
structure SummaryRow where
  summary : Summary
  flushedAt : Instant
deriving DecidableEq, Repr

/-- The value of a row, in which the average always has a field. -/
def SummaryRow.toJson (r : SummaryRow) : Json :=
  .object (r.summary.countFields ++
    [("avgDwellTimeMs", r.summary.averageDwell.elim .null fun n => .int n),
     ("flushedAt", .int r.flushedAt)])

/-- The sink with a row for each subject. -/
def relationalSink : Sink (Table String SummaryRow) where
  persist s t rows := (.ok (), rows.insert s.uri ⟨s.clamped, t⟩)

end PaperIndex.Metrics
