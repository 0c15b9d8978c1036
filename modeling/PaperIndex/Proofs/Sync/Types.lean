import Mathlib.Data.List.Induction
import PaperIndex.Proofs.Sync.Writes

/-! # Types of entries

An entry names the kind of its body. Indexing writes both, a refresh writes the body alone. So the
name is that of the record last indexed and the body is that of the record last written
(`traced_applyWrites`), and they belong together exactly when these two are of one kind
(`typesFollow`). -/

namespace PaperIndex

/-- The body of the entry encodes a record, and the entry names its kind. -/
def IndexedRecord.WellTyped (entry : IndexedRecord) : Prop :=
  ∃ r : Record, entry.body = r.toText ∧ entry.typeName = r.typeName

namespace Record

/-- How the text of a record starts. -/
def leadChars (k : RecordKind) : List Char :=
  '\x7b' :: Json.stringChars "$type" ++ ':' :: Json.stringChars k.name

theorem toList_toText (r : Record) :
    r.toText.toList = leadChars r.kind ++ Json.fieldsChars r.bodyFields := by
  rw [toText, Json.compact, String.toList_ofList]
  rfl

/-- The names of the kinds first differ all at once at this character of the text. -/
theorem kind_eq_of_leadChars {k k' : RecordKind} (h : (leadChars k)[27]? = (leadChars k')[27]?) :
    k = k' := by
  revert h
  cases k <;> cases k' <;> decide

/-- The text of a record tells its kind. -/
theorem kind_eq_of_toText_eq {r r' : Record} (h : r.toText = r'.toText) : r.kind = r'.kind := by
  have hchar : ∀ r : Record, r.toText.toList[27]? = (leadChars r.kind)[27]? := by
    intro r
    rw [toList_toText]
    refine List.getElem?_append_left ?_
    generalize r.kind = k
    cases k <;> decide
  refine kind_eq_of_leadChars ?_
  rw [← hchar, ← hchar, h]

theorem typeName_eq_iff {r r' : Record} : r.typeName = r'.typeName ↔ r.kind = r'.kind := by
  constructor
  · intro h
    have hname := congrArg RecordKind.ofName? h
    rw [typeName, typeName, ofName?_name, ofName?_name] at hname
    exact Option.some.inj hname
  · exact congrArg RecordKind.name

end Record

/-- The repository that gives its answers in turn, to whatever it is asked. -/
def Repository.inTurn {ρ : Type} : Repository (List (Except FetchError (Option Fetched))) ρ where
  fetch _ _ answers cache := (answers.head?.getD (.ok none), answers.tail, cache)

namespace Sync

open Time (Instant)

/-! ### What a log says about an entry -/

/-- The record of an indexing. -/
def Change.indexed? : Change → Option Record
  | .indexed _ _ record => some record
  | _ => none

/-- The record that a change writes as the body. -/
def Change.written? : Change → Option Record
  | .indexed _ _ record => some record
  | .refreshed _ record => some record
  | _ => none

/-- The record that a URI was last indexed with. -/
def lastIndexed (uri : String) (log : List Write) : Option Record :=
  ((writesTo uri log).filterMap fun w => w.change.indexed?).getLast?

/-- The record that was last written as the body of the entry of a URI. -/
def lastWritten (uri : String) (log : List Write) : Option Record :=
  ((writesTo uri log).filterMap fun w => w.change.written?).getLast?

/-- **How an entry is typed after a log**: it names the kind of the record last indexed, and its
body is the record last written. -/
def Traced (uri : String) (log : List Write) (entry : IndexedRecord) : Prop :=
  ∃ indexed written, lastIndexed uri log = some indexed ∧ lastWritten uri log = some written ∧
    entry.typeName = indexed.typeName ∧ entry.body = written.toText

theorem Traced.wellTyped_iff {uri : String} {log : List Write} {entry : IndexedRecord}
    (h : Traced uri log entry) : entry.WellTyped ↔
      (lastWritten uri log).map Record.kind = (lastIndexed uri log).map Record.kind := by
  obtain ⟨indexed, written, hindexed, hwritten, htype, hbody⟩ := h
  rw [hindexed, hwritten, Option.map_some, Option.map_some, Option.some_inj]
  constructor
  · rintro ⟨r, hr, hname⟩
    have hkind := Record.kind_eq_of_toText_eq (hbody.symm.trans hr)
    exact hkind.trans (Record.typeName_eq_iff.1 (hname.symm.trans htype))
  · intro hkind
    exact ⟨written, hbody, htype.trans (Record.typeName_eq_iff.2 hkind.symm)⟩

section Snoc
variable {uri : String} {log : List Write} {w : Write}

theorem writesTo_snoc :
    writesTo uri (log ++ [w]) = writesTo uri log ++ if w.uri = uri then [w] else [] := by
  unfold writesTo
  rw [List.filter_append]
  by_cases hw : w.uri = uri <;> simp [hw]

theorem lastIndexed_snoc : lastIndexed uri (log ++ [w]) =
    (if w.uri = uri then w.change.indexed? else none).or (lastIndexed uri log) := by
  unfold lastIndexed
  rw [writesTo_snoc, List.filterMap_append, List.getLast?_append]
  by_cases hw : w.uri = uri
  · cases h : w.change.indexed? <;> simp [hw, h]
  · simp [hw]

theorem lastWritten_snoc : lastWritten uri (log ++ [w]) =
    (if w.uri = uri then w.change.written? else none).or (lastWritten uri log) := by
  unfold lastWritten
  rw [writesTo_snoc, List.filterMap_append, List.getLast?_append]
  by_cases hw : w.uri = uri
  · cases h : w.change.written? <;> simp [hw, h]
  · simp [hw]

theorem applyWrites_snoc (entries : String → Option IndexedRecord) :
    applyWrites entries (log ++ [w]) uri =
      if w.uri = uri then w.apply (applyWrites entries log uri)
      else applyWrites entries log uri := by
  rw [applyWrites_append]
  by_cases hw : w.uri = uri
  · subst hw
    rw [if_pos rfl]
    exact Function.update_self ..
  · rw [if_neg hw]
    exact Function.update_of_ne (Ne.symm hw) ..

/-- A write keeps an entry typed as the log says. -/
theorem Traced.snoc {slot : Option IndexedRecord}
    (h : ∀ entry, slot = some entry → Traced w.uri log entry) {entry : IndexedRecord}
    (happly : w.apply slot = some entry) : Traced w.uri (log ++ [w]) entry := by
  unfold Traced
  rw [lastIndexed_snoc, lastWritten_snoc, if_pos rfl, if_pos rfl]
  obtain ⟨now, uri, change⟩ := w
  cases change with
  | indexed cid endpoint record =>
    cases happly
    exact ⟨record, record, rfl, rfl, rfl, rfl⟩
  | refreshed cid record =>
    obtain ⟨before, hslot, rfl⟩ := Option.map_eq_some_iff.1 happly
    obtain ⟨indexed, written, hindexed, -, htype, -⟩ := h before hslot
    exact ⟨indexed, record, hindexed, rfl, htype, rfl⟩
  | tracked cid endpoint =>
    obtain ⟨before, hslot, rfl⟩ := Option.map_eq_some_iff.1 happly
    exact h before hslot
  | confirmed cid =>
    obtain ⟨before, hslot, rfl⟩ := Option.map_eq_some_iff.1 happly
    obtain ⟨indexed, written, hindexed, hwritten, htype, hbody⟩ := h before hslot
    refine ⟨indexed, written, hindexed, hwritten, ?_, ?_⟩
    · split
      · exact htype
      · exact htype
    · split
      · exact hbody
      · exact hbody
  | deleted => cases happly

end Snoc

/-- The entries that come of a log, if there were none before. -/
theorem traced_applyWrites {uri : String} {log : List Write} {entry : IndexedRecord}
    (h : applyWrites (fun _ => none) log uri = some entry) : Traced uri log entry := by
  induction log using List.reverseRecOn generalizing entry with
  | nil => cases h
  | append_singleton log w ih =>
    rw [applyWrites_snoc] at h
    by_cases hw : w.uri = uri
    · subst hw
      rw [if_pos rfl] at h
      exact Traced.snoc (fun before hbefore => ih hbefore) h
    · rw [if_neg hw] at h
      unfold Traced
      rw [lastIndexed_snoc, lastWritten_snoc, if_neg hw, if_neg hw]
      exact ih h

/-- The value of an eprint. -/
def eprintValue : Json :=
  .object [("$type", .string "pub.chive.eprint.submission"), ("title", .string "T"),
    ("abstract", .string "A"), ("authors", .array [.object [("name", .string "N")]]),
    ("createdAt", .string "2024-01-01T00:00:00Z")]

/-- The value of a review of another record. -/
def reviewValue : Json :=
  .object [("$type", .string "pub.chive.review.comment"), ("subject", .string "at://a/b/c"),
    ("text", .string "R"), ("createdAt", .string "2024-01-01T00:00:00Z")]

namespace Engine

variable {ρ ω : Type}

/-- After every run from a state an entry is typed as the log says: well typed exactly when the
record last written and the record last indexed are of one kind. -/
def TypesFollow (e : Engine ρ ω) (entryAt : ρ → String → Option IndexedRecord) (st : State ρ ω) :
    Prop :=
  ∀ (session : List (Instant × Request)) (uri : String) (entry : IndexedRecord),
    entryAt (e.run session st).cache uri = some entry →
      Traced uri (e.log session st) entry ∧
        (entry.WellTyped ↔ (lastWritten uri (e.log session st)).map Record.kind =
          (lastIndexed uri (e.log session st)).map Record.kind)

theorem typesFollow_of_lawful {e : Engine ρ ω} {entryAt : ρ → String → Option IndexedRecord}
    (hc : e.cache.Lawful entryAt) (hr : e.repository.Discreet) {st : State ρ ω}
    (hempty : entryAt st.cache = fun _ => none) : e.TypesFollow entryAt st := by
  intro session uri entry h
  have htraced : Traced uri (e.log session st) entry := by
    rw [entryAt_run hc hr, hempty] at h
    exact traced_applyWrites h
  exact ⟨htraced, htraced.wellTyped_iff⟩

/-- **The types of the entries** follow the log in every run from an empty cache, in memory or
relational, whatever calls of it have been made to fail and whatever the repository answers, as long
as fetches leave the cache alone. -/
theorem typesFollow {ω : Type} (calls : List Cache.Call) (limit : Nat) (world : ω) :
    (∀ repository : Repository ω Cache.Memory, repository.Discreet →
      TypesFollow ⟨Cache.Memory.store.failing calls, repository, limit⟩ Cache.Memory.entryAt
        ⟨.empty, world⟩) ∧
    (∀ repository : Repository ω Cache.Relational, repository.Discreet →
      TypesFollow ⟨Cache.Relational.store.failing calls, repository, limit⟩ Cache.Relational.entryAt
        ⟨.empty, world⟩) :=
  ⟨fun _ hr => typesFollow_of_lawful (Cache.Memory.lawful.failing calls) hr rfl,
    fun _ hr => typesFollow_of_lawful (Cache.Relational.lawful.failing calls) hr rfl⟩

/-- An eprint that is refreshed by an eprint stays well typed. -/
theorem wellTyped_refreshed_eprint :
    let e : Engine Cache.Memory (List (Except FetchError (Option Fetched))) :=
      ⟨Cache.Memory.store.failing [.markSwept], .inTurn, defaultScanLimit⟩
    let answers := [.ok (some ⟨"at://a/c/r", "c2", eprintValue, "p"⟩)]
    let session : List (Instant × Request) :=
      [(0, .index "at://a/c/r" "c1" "p" eprintValue), (1, .refresh "at://a/c/r")]
    e.repository.Discreet ∧
    ∃ entry, (e.run session ⟨.empty, answers⟩).cache.entryAt "at://a/c/r" = some entry ∧
      entry.contentHash = "c2" ∧ entry.WellTyped := by
  intro e answers session
  have hr : e.repository.Discreet := fun _ _ _ _ => rfl
  have hentry : (e.run session ⟨.empty, answers⟩).cache.entryAt "at://a/c/r" = some
      ⟨"at://a/c/r", "c2", "p", "pub.chive.eprint.submission",
        (Record.eprint ⟨"T", "A", [⟨"N", none, none⟩], [], none, "2024-01-01T00:00:00Z"⟩).toText,
        1⟩ := by
    unfold e answers session
    decide +kernel
  obtain ⟨-, hiff⟩ := (typesFollow _ _ answers).1 _ hr session _ _ hentry
  refine ⟨hr, _, hentry, rfl, hiff.2 ?_⟩
  unfold e answers session
  decide +kernel

/-- An eprint whose URI turns out to hold a review keeps its type when it is refreshed. -/
theorem not_wellTyped_refreshed_review :
    let e : Engine Cache.Memory (List (Except FetchError (Option Fetched))) :=
      .withUsualLimit Cache.Memory.store .inTurn
    let answers := [.ok (some ⟨"at://a/c/r", "c2", reviewValue, "p"⟩)]
    let session : List (Instant × Request) :=
      [(0, .index "at://a/c/r" "c1" "p" eprintValue), (0, .refresh "at://a/c/r")]
    e.repository.Discreet ∧
    ∃ entry, (e.run session ⟨.empty, answers⟩).cache.entryAt "at://a/c/r" = some entry ∧
      entry.typeName = "pub.chive.eprint.submission" ∧ ¬entry.WellTyped := by
  intro e answers session
  have hentry : (e.run session ⟨.empty, answers⟩).cache.entryAt "at://a/c/r" = some
      ⟨"at://a/c/r", "c2", "p", "pub.chive.eprint.submission",
        (Record.review ⟨"at://a/b/c", "R", "2024-01-01T00:00:00Z"⟩).toText, 0⟩ := by
    unfold e answers session
    decide +kernel
  refine ⟨fun _ _ _ _ => rfl, _, hentry, rfl, ?_⟩
  rintro ⟨r, hbody, htype⟩
  have hkind := Record.kind_eq_of_toText_eq hbody
  rw [Record.typeName, ← hkind] at htype
  exact absurd htype (by decide)

end Engine

end Sync

end PaperIndex
