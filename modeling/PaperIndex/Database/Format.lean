import PaperIndex.Database

/-! # The stored form of databases

A database is kept as a JSON value. A format writes the values of one type and reads them back; the
law that nothing is lost is part of it, so every format that is built from others has it too. -/

namespace PaperIndex

/-- A way to write the values of a type and to read them back. -/
structure Format (α : Type) where
  write : α → Json
  read? : Json → Option α
  /-- What is written is read back. -/
  read?_write : ∀ a, read? (write a) = some a

namespace Format

attribute [simp] read?_write

/-! ### Columns -/

/-- Texts as they are. -/
def text : Format String := ⟨.string, Json.text?, fun _ => rfl⟩

/-- Integers as they are. -/
def integer : Format Int := ⟨.int, Json.int?, fun _ => rfl⟩

/-- Flags as they are. -/
def flag : Format Bool := ⟨.bool, Json.bool?, fun _ => rfl⟩

/-- Nothing to keep. -/
def unit : Format Unit := ⟨fun _ => .null, fun _ => some (), fun _ => rfl⟩

/-! ### Composition -/

variable {α β κ : Type}

/-- Values that are kept as values of another type. -/
def via (f : Format β) (toKept : α → β) (ofKept : β → α) (h : ∀ a, ofKept (toKept a) = a) :
    Format α where
  write a := f.write (toKept a)
  read? j := (f.read? j).map ofKept
  read?_write a := by simp [h]

/-- Two values in an array. -/
def pair (f : Format α) (g : Format β) : Format (α × β) where
  write p := .array [f.write p.1, g.write p.2]
  read?
    | .array [a, b] => do return (← f.read? a, ← g.read? b)
    | _ => none
  read?_write p := by simp

/-- A value in an array of its own, which is empty if there is none. -/
def optional (f : Format α) : Format (Option α) where
  write
    | some a => .array [f.write a]
    | none => .array []
  read?
    | .array [a] => (f.read? a).map some
    | .array [] => some none
    | _ => none
  read?_write a := by cases a <;> simp

/-- Values under a label that tells them from other values. -/
def labelled (label : String) (f : Format α) : Format α where
  write a := .object [(label, f.write a)]
  read?
    | .object [(name, j)] => if name = label then f.read? j else none
    | _ => none
  read?_write a := by simp

theorem mapM_read?_write (f : Format α) (as : List α) :
    (as.map f.write).mapM f.read? = some as := by
  induction as with
  | nil => rfl
  | cons a as ih => simp [List.mapM_cons, ih]

/-- The values of a list in an array. -/
def list (f : Format α) : Format (List α) where
  write as := .array (as.map f.write)
  read?
    | .array js => js.mapM f.read?
    | _ => none
  read?_write as := f.mapM_read?_write as

/-- The rows of a table. -/
def table [DecidableEq κ] (key : Format κ) (value : Format α) : Format (Table κ α) :=
  (list (pair key value)).via Table.rows Table.ofRows Table.ofRows_rows

/-- Natural numbers as integers. -/
def natural : Format Nat := integer.via (fun n => n) Int.toNat fun _ => rfl

/-- Words of 64 bits as integers. -/
def word : Format UInt64 := natural.via UInt64.toNat UInt64.ofNat fun _ => by simp

/-! ### Rows -/

/-- The columns of an entry. -/
def record : Format Cache.RecordRow :=
  (pair (pair text text) (pair (pair text text) integer)).via
    (fun r => ((r.cid, r.endpoint), (r.typeName, r.body), r.indexedAt))
    (fun ((cid, endpoint), (typeName, body), t) => ⟨cid, endpoint, typeName, body, t⟩) fun _ => rfl

/-- The columns of a server. -/
def server : Format Cache.ServerRow :=
  (pair integer (optional integer)).via (fun r => (r.registeredAt, r.lastSweptAt))
    (fun (registered, swept) => ⟨registered, swept⟩) fun _ => rfl

/-- The columns of a citation. -/
def citation : Format Graph.CitationRow :=
  (pair (pair flag text) integer).via (fun r => ((r.isInfluential, r.source), r.discoveredAt))
    (fun ((influential, source), t) => ⟨influential, source, t⟩) fun _ => rfl

/-- Two counts. -/
def twoCounts : Format (Nat × Nat) := pair natural natural

/-- The columns of a summary. -/
def summary : Format Metrics.Summary :=
  (pair (pair text (pair twoCounts twoCounts))
    (pair (pair natural twoCounts) (pair twoCounts (pair natural (optional natural))))).via
    (fun s => ((s.uri, (s.totalViews, s.uniqueViews), (s.totalDownloads, s.uniqueDownloads)),
      (s.viewsOfDay, s.viewsOfWeek, s.viewsOfMonth), (s.searchClicks, s.searchDownloads),
      s.dwellSamples, s.averageDwell))
    (fun ((uri, (tv, uv), (td, ud)), (day, week, month), (clicks, downloads), samples, average) =>
      ⟨uri, tv, uv, td, ud, day, week, month, clicks, downloads, samples, average⟩)
    fun _ => rfl

/-- The columns of a summary with the instant at which it was written. -/
def summaryRow : Format Metrics.SummaryRow :=
  (pair summary integer).via (fun r => (r.summary, r.flushedAt)) (fun (s, t) => ⟨s, t⟩)
    fun _ => rfl

/-! ### Relations -/

/-- The relations of the cache. -/
def cache : Format Cache.Relational :=
  (pair (table text record) (table text server)).via (fun c => (c.records, c.registry))
    (fun (records, registry) => ⟨records, registry⟩) fun _ => rfl

/-- The primary key of a register. -/
def registerKey : Format Counter.RegisterKey :=
  (pair text natural).via (fun k => (k.key, k.index)) (fun (key, index) => ⟨key, index⟩)
    fun _ => rfl

/-- The primary key of a hash. -/
def hashKey : Format Counter.HashKey :=
  (pair text word).via (fun k => (k.key, k.hash)) (fun (key, hash) => ⟨key, hash⟩)
    fun _ => rfl

/-- The primary key of a scored member. -/
def memberKey : Format Counter.MemberKey :=
  (pair text text).via (fun k => (k.key, k.member)) (fun (key, member) => ⟨key, member⟩)
    fun _ => rfl

/-- The cell of a tally, with a flag that tells doubles. -/
def cell : Format Counter.Cell :=
  (pair flag integer).via
    (fun
      | .integer n => (false, n)
      | .real x => (true, x))
    (fun (isReal, n) => if isReal then .real n else .integer n) fun c => by cases c <;> rfl

/-- The relations of the counter store. -/
def counters : Format Counter.Relational :=
  (pair (pair (table text (optional integer)) (table text cell))
    (pair (table registerKey natural)
      (pair (table hashKey unit) (table memberKey integer)))).via
    (fun c => ((c.keys, c.tallies), c.registers, c.hashes, c.scores))
    (fun ((keys, tallies), registers, hashes, scores) =>
      ⟨keys, tallies, registers, hashes, scores⟩)
    fun _ => rfl

/-- The relations of the graph. -/
def graph : Format Graph.Relational :=
  (pair (table text unit) (table (pair text text) citation)).via (fun g => (g.papers, g.citations))
    (fun (papers, citations) => ⟨papers, citations⟩) fun _ => rfl

/-- **Databases.** -/
def database : Format Database :=
  (pair (pair cache counters) (pair (table text summaryRow) graph)).via
    (fun d => ((d.cache, d.counters), d.summaries, d.graph))
    (fun ((cache, counters), summaries, graph) => ⟨cache, counters, summaries, graph⟩) fun _ => rfl

/-- Databases that may be without their relations, as they stand in a file of their own. -/
def stored : Format (Option Database) := labelled "epx database" (optional database)

end Format

end PaperIndex
