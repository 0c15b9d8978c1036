import PaperIndex.Citations.Submission
import PaperIndex.Metrics.Event
import PaperIndex.Proofs.Json.Reading

/-! # Documents of events and of citations

A batch of events and an import of citations come as documents: lists, as texts or as values. What
is written as such a document is read back without loss (`documents_read_back`). A duration has to
fit into 64 bits; subjects, actors and sources may be any texts. -/

namespace PaperIndex

namespace Metrics.Event

open Json

/-- Whether the duration of a dwell is a word of 64 bits. -/
def FitsWord : Event → Prop
  | .dwell _ millis => Word.isUnsigned 64 millis = true
  | _ => True

/-! ### Reading an event -/

theorem read_of_tagged {d : Draft} {kind : EventKind} {body : Json}
    (h : readTagged "internally tagged enum MetricEvent" "type" readKind d = .ok (kind, body)) :
    read d = readBody kind (Draft.ofValue body) := by
  rw [read, h]
  rfl

/-- A dwell is read from its two fields in either order. The draft of the duration stays a variable:
as a number it would be evaluated with every field. -/
theorem readBody_dwell {uri : String} {millis : Nat} {d : Draft}
    (hd : readUnsigned 64 d = .ok millis) (fields : List (String × Draft))
    (hfields : fields = [("uri", .string uri), ("durationMs", d)] ∨
      fields = [("durationMs", d), ("uri", .string uri)]) :
    readBody .dwell (.object (draftFields fields) none) = .ok (.dwell uri millis) := by
  have hcheck : durationField.check d = .ok () := congrArg (Except.map fun _ => ()) hd
  have hseen : readFieldsOf .tagged EventKind.dwell.title [uriField, durationField]
      (.object (draftFields fields) none) = .ok fields.reverse := by
    refine readFieldsOf_object ?_ ?_ ?_
    · rcases hfields with rfl | rfl <;> simp only [List.forall_mem_cons]
      · exact ⟨⟨_, rfl, rfl⟩, ⟨_, rfl, hcheck⟩, List.forall_mem_nil _⟩
      · exact ⟨⟨_, rfl, hcheck⟩, ⟨_, rfl, rfl⟩, List.forall_mem_nil _⟩
    · rcases hfields with rfl | rfl <;> simp
    · rcases hfields with rfl | rfl <;> rfl
  have hduration : required fields.reverse "durationMs" (readUnsigned 64) = .ok millis := by
    rcases hfields with rfl | rfl <;> exact hd
  unfold readBody
  simp only [hseen, bind, Except.bind, hduration]
  rcases hfields with rfl | rfl <;> rfl

theorem isPlain_toJson {ev : Event} (h : ev.FitsWord) : isPlain 1 ev.toJson = true := by
  cases ev with
  | view uri actor => cases actor <;> rfl
  | download uri actor => cases actor <;> rfl
  | dwell uri millis =>
    unfold FitsWord at h
    have hplain : (Number.integer millis).isPlain = true := by
      rw [Number.isPlain, h, Bool.or_true]
    simp only [toJson, int, isPlain, arePlainFields, hplain]
    rfl
  | searchClick uri => rfl
  | searchDownload uri => rfl

theorem read_toJson {ev : Event} (h : ev.FitsWord) : read (Draft.ofValue ev.toJson) = .ok ev := by
  cases ev with
  | view uri actor => cases actor <;> rfl
  | download uri actor => cases actor <;> rfl
  | dwell uri millis =>
    unfold FitsWord at h
    refine (read_of_tagged rfl).trans ?_
    exact readBody_dwell (readUnsigned_int h)
      [("uri", .string uri), ("durationMs", Draft.ofValue (int millis))] (.inl rfl)
  | searchClick uri => rfl
  | searchDownload uri => rfl

/-- In canonical form the tag stands behind the actor and the duration. -/
theorem read_canonical_toJson {ev : Event} (h : ev.FitsWord) :
    read (Draft.ofValue ev.toJson.canonical) = .ok ev := by
  cases ev with
  | view uri actor => cases actor <;> rfl
  | download uri actor => cases actor <;> rfl
  | dwell uri millis =>
    unfold FitsWord at h
    refine (read_of_tagged rfl).trans ?_
    exact readBody_dwell (readUnsigned_int h)
      [("durationMs", Draft.ofValue (int millis)), ("uri", .string uri)] (.inr rfl)
  | searchClick uri => rfl
  | searchDownload uri => rfl

/-- **An event** is read back as it was written. -/
theorem readsBack : ReadsBack FitsWord toJson read read where
  plain := isPlain_toJson
  text := read_toJson
  value := read_canonical_toJson

end Metrics.Event

/-- **A citation** is read back as it was written. -/
theorem Citation.readsBack :
    Json.ReadsBack (fun _ => True) Citation.toJson (Citation.read .text)
      (Citation.read .value) where
  plain _ := rfl
  text _ := rfl
  value _ := rfl

open Json

/-- **Documents are read back** without loss, as texts and as values. -/
theorem documents_read_back {events : List Metrics.Event} (hevents : ∀ ev ∈ events, ev.FitsWord)
    (citations : List Citation) :
    decodeText (readList Metrics.Event.read)
        (Json.array (events.map Metrics.Event.toJson)).compact = .ok events ∧
      decodeValue (readList Metrics.Event.read)
        (Json.array (events.map Metrics.Event.toJson)) = .ok events ∧
      decodeText (readList (Citation.read .text))
        (Json.array (citations.map Citation.toJson)).compact = .ok citations ∧
      decodeValue (readList (Citation.read .value))
        (Json.array (citations.map Citation.toJson)) = .ok citations := by
  have hcitations : ∀ c ∈ citations, True := fun _ _ => trivial
  exact ⟨Metrics.Event.readsBack.decodeText_list hevents,
    Metrics.Event.readsBack.decodeValue_list hevents,
    Citation.readsBack.decodeText_list hcitations, Citation.readsBack.decodeValue_list hcitations⟩

/-- Events of every kind, the longest duration among them. -/
def someEvents : List Metrics.Event :=
  [.view "at://did:plc:a/pub.chive.eprint.submission/1" (some "Zoë \"\\\" 😀"), .view "\x00" none,
    .download "" (some ""), .dwell "at://x\n" (Word.greatest 64), .dwell "y" 0,
    .searchClick "\u2028", .searchDownload "z"]

/-- An influential citation and one that is not. -/
def someCitations : List Citation :=
  [⟨"at://a", "at://b", true, "user \"curated\""⟩, ⟨"\t", "", false, "𝔊rep"⟩]

theorem documents_read_back_some :
    Metrics.Event.dwell "at://x\n" (Word.greatest 64) ∈ someEvents ∧
      (∀ ev ∈ someEvents, ev.FitsWord) ∧
      decodeText (readList Metrics.Event.read)
        (Json.array (someEvents.map Metrics.Event.toJson)).compact = .ok someEvents ∧
      decodeValue (readList Metrics.Event.read)
        (Json.array (someEvents.map Metrics.Event.toJson)) = .ok someEvents ∧
      decodeText (readList (Citation.read .text))
        (Json.array (someCitations.map Citation.toJson)).compact = .ok someCitations ∧
      decodeValue (readList (Citation.read .value))
        (Json.array (someCitations.map Citation.toJson)) = .ok someCitations := by
  have hfits : ∀ ev ∈ someEvents, ev.FitsWord := by
    simp only [someEvents, List.forall_mem_cons, Metrics.Event.FitsWord]
    exact ⟨trivial, trivial, trivial, rfl, rfl, trivial, trivial, List.forall_mem_nil _⟩
  exact ⟨by decide, hfits, documents_read_back hfits someCitations⟩

end PaperIndex
