import PaperIndex.Database
import PaperIndex.Rounding
import PaperIndex.Sync.Outcome
import PaperIndex.Text.Pieces

/-! # What commands print

Ages and sizes in words, and the lines of the listings. -/

namespace PaperIndex.Cli

open Text (padLeft padRight)

/-- The quotient in fixed-point form, rounded to the nearest unit of the last place and to the even
one of two. -/
def fixedText (places n d : Nat) : String :=
  let q := Rounding.quotient (n * Nat.pow 10 places) d
  toString (q / Nat.pow 10 places) ++ "." ++ Time.padded places (q % Nat.pow 10 places)

/-- A number of bytes in the unit that fits. -/
def sizeText (bytes : Nat) : String :=
  let kilo := 1024
  let mega := 1024 * kilo
  let giga := 1024 * mega
  if bytes < kilo then toString bytes ++ " B"
  else if bytes < mega then fixedText 1 bytes kilo ++ " KB"
  else if bytes < giga then fixedText 1 bytes mega ++ " MB"
  else fixedText 2 bytes giga ++ " GB"

/-- A date to the minute, or the number of an instant without a date. -/
def dateText (t : Int) : String := if Time.hasDate t then Time.minuteText t else toString t

/-- So many units ago. -/
def agoText (n : Int) (word : String) : String :=
  toString n ++ " " ++ word ++ (if n = 1 then "" else "s") ++ " ago"

/-- How long ago an instant was; dates are written beyond thirty days and in the future. -/
def ageText (now t : Int) : String :=
  let seconds := (now - t).tdiv 1000
  if seconds < 0 then dateText t
  else if seconds < 60 then "just now"
  else if seconds < 3600 then agoText (seconds / 60) "min"
  else if seconds < 86400 then agoText (seconds / 3600) "hour"
  else if seconds < 86400 * 30 then agoText (seconds / 86400) "day"
  else dateText t

/-- A line of dashes. -/
def rule (width : Nat) : String := String.ofList (List.replicate width '-')

/-- The lines about the kinds of records. -/
def kindLines (kinds : List (String × Nat)) : List String :=
  if kinds.isEmpty then []
  else
    let row (a b : String) : String := "  " ++ padRight 44 a ++ " " ++ padLeft 8 b
    ["", "  By type:", row "RECORD TYPE" "COUNT", "  " ++ rule 53] ++
      kinds.map fun k => row k.1 (toString k.2)

/-- The lines about a database. -/
def overviewLines (path : String) (size : Nat) (now : Int) (o : Overview) : List String :=
  ["Eprint Index: Database Stats", "============================", "",
   "  Database:    " ++ path,
   "  Size:        " ++ sizeText size, "",
   "  Records:     " ++ toString o.records,
   "  Oldest:      " ++ o.oldest.elim "-" (ageText now),
   "  PDS:         " ++ toString o.servers,
   "  Counters:    " ++ toString o.liveKeys ++ " live keys",
   "  Snapshots:   " ++ toString o.summaries,
   "  Graph:       " ++ toString o.papers ++ " papers, " ++ toString o.citations ++ " citations"] ++
  kindLines o.kinds ++ [""]

/-- The lines about registered servers. -/
def serverLines (servers : List ServerEntry) : List String :=
  let row (a b c : String) : String := padRight 48 a ++ " " ++ padRight 20 b ++ " " ++ c
  if servers.isEmpty then ["No PDS registered."]
  else
    [row "ENDPOINT" "REGISTERED" "LAST SWEPT", rule 88] ++ servers.map fun s =>
      row s.endpoint (Time.minuteText s.registeredAt) (s.lastSweptAt.elim "never" Time.minuteText)

/-- The lines about a sweep. -/
def sweepLines (r : Sync.Report) : List String :=
  ["Sweep complete:",
   "  examined:  " ++ toString r.examined,
   "  refreshed: " ++ toString r.refreshed,
   "  changed:   " ++ toString r.changed,
   "  not found: " ++ toString r.notFound,
   "  failed:    " ++ toString r.failed]

/-- The help. -/
def helpLines : List String :=
  ["Usage: epx [--config <CONFIG>] <COMMAND>", "",
   "Commands:",
   "  init       Create the relations of the database",
   "  index      Fetch a record from its server and index it",
   "  delete     Remove a record from the index and the citation graph",
   "  check      Compare an entry with its authoritative record",
   "  refresh    Bring an entry up to date",
   "  sweep      Refresh the entries that were not confirmed for some time",
   "  pds        Manage the registry of servers: add, list",
   "  metrics    Count engagement: view, download, dwell, search-click, search-download,",
   "             batch, show, trending, flush",
   "  citations  Use the citation graph: register, import, citing, references, cocited, delete",
   "  stats      Show what the database holds"]

/-- The version. -/
def versionLine : String := "epx 0.3.0"

end PaperIndex.Cli
