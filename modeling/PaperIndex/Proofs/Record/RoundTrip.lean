import PaperIndex.Proofs.Json.Reading
import PaperIndex.Proofs.Record.Grammar

/-! # Records and their texts

The accepted form of a record is read as the record itself (`ofJson_toJson`), provided that the
record passes its check, as every record does that was read (`check_of_ofJson`). The form has no
numbers and is three containers deep, so its text can be read as well (`ofText?_toText`). What was
read once is therefore read again from its own text, whatever the value it first came from looked
like (`reread_toText`). -/

namespace PaperIndex

namespace Record

open Json

/-! ### Reading the accepted form -/

theorem readAuthor_authorJson (a : Author) :
    readAuthor (Draft.ofValue (authorJson a).canonical) = .ok a := by
  obtain ⟨name, did, orcid⟩ := a
  cases did <;> cases orcid <;> rfl

theorem readList_textsJson (ss : List String) :
    readList readTextValue (Draft.ofValue (textsJson ss).canonical) = .ok ss :=
  readList_map (fun _ => rfl) ss

/-- **An eprint** is read from its accepted form. The keywords and the DOI may be left out of it. -/
theorem readEprint_bodyOf (e : Eprint) :
    readEprint (Draft.ofValue (bodyOf (toJson (.eprint e)))) = .ok e := by
  obtain ⟨title, summary, authors, keywords, doi, createdAt⟩ := e
  let authorsDraft := Draft.ofValue (Json.array (authors.map authorJson)).canonical
  let keywordsDraft := Draft.ofValue (textsJson keywords).canonical
  let fields : List (String × Draft) :=
    [("abstract", .string summary), ("authors", authorsDraft), ("createdAt", .string createdAt)] ++
      (doi.elim [] fun s => [("doi", .string s)]) ++
      (if keywords.isEmpty then [] else [("keywords", keywordsDraft)]) ++ [("title", .string title)]
  have hauthors : readList readAuthor authorsDraft = .ok authors :=
    readList_map readAuthor_authorJson authors
  have hkeywords : readList readTextValue keywordsDraft = .ok keywords :=
    readList_textsJson keywords
  -- Which fields there are depends on the DOI and the keywords only, not on what they hold.
  have hfields : Draft.ofValue (bodyOf (toJson (.eprint ⟨title, summary, authors, keywords, doi,
      createdAt⟩))) = .object (draftFields fields) none := by
    cases doi <;> cases keywords <;> rfl
  have hnodup : (fields.map Prod.fst).Nodup := by
    cases doi <;> cases keywords <;> simp [fields]
  have hrequired : requireFields fields.reverse eprintFields = .ok () := by
    cases doi <;> cases keywords <;> rfl
  have hdeclared : ∀ f ∈ fields, ∃ spec, eprintFields.find? (·.name == f.1) = some spec ∧
      spec.check f.2 = .ok () := by
    intro f hf
    simp only [fields, List.mem_append, List.mem_cons, List.not_mem_nil, or_false] at hf
    rcases hf with (((rfl | rfl | rfl) | hdoi) | hlist) | rfl
    · exact ⟨_, rfl, rfl⟩
    · exact ⟨_, rfl, congrArg (Except.map fun _ => ()) hauthors⟩
    · exact ⟨_, rfl, rfl⟩
    · cases doi with
      | none => cases hdoi
      | some s =>
        obtain rfl := List.mem_singleton.1 hdoi
        exact ⟨_, rfl, rfl⟩
    · cases keywords with
      | nil => cases hlist
      | cons k ks =>
        obtain rfl := List.mem_singleton.1 hlist
        exact ⟨_, rfl, congrArg (Except.map fun _ => ()) hkeywords⟩
    · exact ⟨_, rfl, rfl⟩
  have hseen : readFieldsOf .tagged "struct EprintSubmission" eprintFields
      (.object (draftFields fields) none) = .ok fields.reverse :=
    readFieldsOf_object hdeclared hnodup hrequired
  have hreadAuthors : required fields.reverse "authors" (readList readAuthor) = .ok authors := by
    cases doi <;> cases keywords <;> exact hauthors
  have hreadKeywords : withDefault [] fields.reverse "keywords" (readList readTextValue) =
      .ok keywords := by
    cases doi <;> cases keywords <;> first | rfl | exact hkeywords
  rw [hfields, readEprint, hseen]
  simp only [bind, Except.bind, hreadAuthors, hreadKeywords]
  cases doi <;> cases keywords <;> rfl

/-- **An endorsement** is read from its accepted form. -/
theorem readEndorsement_bodyOf (e : Endorsement) :
    readEndorsement (Draft.ofValue (bodyOf (toJson (.endorsement e)))) = .ok e := by
  let textsDraft := Draft.ofValue (textsJson e.contributions).canonical
  let fields : List (String × Draft) :=
    [("contributions", textsDraft), ("createdAt", .string e.createdAt),
      ("subject", .string e.subject)]
  have htexts : readList readTextValue textsDraft = .ok e.contributions :=
    readList_textsJson e.contributions
  have hdeclared : ∀ f ∈ fields, ∃ spec, endorsementFields.find? (·.name == f.1) = some spec ∧
      spec.check f.2 = .ok () := by
    simp only [fields, List.forall_mem_cons]
    exact ⟨⟨_, rfl, congrArg (Except.map fun _ => ()) htexts⟩, ⟨_, rfl, rfl⟩, ⟨_, rfl, rfl⟩,
      List.forall_mem_nil _⟩
  have hseen : readFieldsOf .tagged "struct Endorsement" endorsementFields
      (.object (draftFields fields) none) = .ok fields.reverse :=
    readFieldsOf_object hdeclared (by simp [fields]) rfl
  have hreadTexts : required fields.reverse "contributions" (readList readTextValue) =
      .ok e.contributions := htexts
  change readEndorsement (.object (draftFields fields) none) = _
  rw [readEndorsement, hseen]
  simp only [bind, Except.bind, hreadTexts]
  rfl

theorem readBody_bodyOf (r : Record) :
    readBody r.kind (Draft.ofValue (bodyOf r.toJson)) = .ok r := by
  cases r with
  | eprint e => exact congrArg (Except.map Record.eprint) (readEprint_bodyOf e)
  | review r => rfl
  | endorsement e => exact congrArg (Except.map Record.endorsement) (readEndorsement_bodyOf e)

theorem type_toJson (r : Record) :
    (r.toJson.field? "$type").bind Json.text? = some r.kind.name := by
  cases r with
  | eprint e =>
    obtain ⟨title, summary, authors, keywords, doi, createdAt⟩ := e
    cases doi <;> cases keywords <;> rfl
  | review r => rfl
  | endorsement e => rfl

/-- **The accepted form of a record** is read as the record, if it passes its check. -/
theorem ofJson_toJson {r : Record} (h : r.check = .ok ()) : ofJson r.toJson = .ok r := by
  unfold ofJson
  rw [type_toJson]
  simp only [ofName?_name, readBody_bodyOf, h]
  rfl

/-- **A record that was read** has passed its check. -/
theorem check_of_ofJson {j : Json} {r : Record} (h : ofJson j = .ok r) : r.check = .ok () :=
  (ofJson_iff_read.1 h).2.2

/-! ### The text -/

theorem isPlain_string (opened : Nat) (s : String) : isPlain opened (.string s) = true := rfl

theorem isPlain_authorJson (a : Author) : isPlain 2 (authorJson a) = true := by
  obtain ⟨name, did, orcid⟩ := a
  cases did <;> cases orcid <;> rfl

theorem isPlain_textsJson (ss : List String) : isPlain 1 (textsJson ss) = true :=
  arePlainItems_map fun _ _ => rfl

theorem isPlain_toJson (r : Record) : isPlain 0 r.toJson = true := by
  cases r with
  | eprint e =>
    obtain ⟨title, summary, authors, keywords, doi, createdAt⟩ := e
    have hauthors : isPlain 1 (.array (authors.map authorJson)) = true :=
      arePlainItems_map fun a _ => isPlain_authorJson a
    have hkeywords := isPlain_textsJson keywords
    change arePlainFields 1 (bodyFields (.eprint ⟨title, summary, authors, keywords, doi,
      createdAt⟩)) = true
    cases doi <;> cases keywords <;>
      simp [bodyFields, arePlainFields, optionalField, isPlain_string, hauthors, hkeywords]
  | review r => rfl
  | endorsement e =>
    have htexts := isPlain_textsJson e.contributions
    change arePlainFields 1 (bodyFields (.endorsement e)) = true
    simp [bodyFields, arePlainFields, isPlain_string, htexts]

/-- **The text of a record** is a text of its accepted form. -/
theorem ofText?_toText (r : Record) : ofText? r.toText = .ok r.toJson :=
  ofText?_compact (isPlain_toJson r)

/-! ### Re-reading -/

/-- **A record that was read** is read again from its own text, and has the same text again. -/
theorem reread_toText {j : Json} {r : Record} (h : ofJson j = .ok r) :
    ∃ j', ofText? r.toText = .ok j' ∧ ofJson j' = .ok r ∧
      (ofJson j').map toText = .ok r.toText := by
  have hread : ofJson r.toJson = .ok r := ofJson_toJson (check_of_ofJson h)
  exact ⟨r.toJson, ofText?_toText r, hread, congrArg (Except.map toText) hread⟩

/-- An eprint whose type stands in the middle, with an author as an array, fields that are `null` or
not declared, and texts that need escapes. -/
def untidyEprint : Json := .object
  [("keywords", .array []), ("doi", .null), ("createdAt", .string "2024-05-01T00:00:00Z"),
    ("$type", .string "pub.chive.eprint.submission"),
    ("title", .string "On \"quotes\", \\ and\n\x01"),
    ("license", .object [("$type", .string "CC-BY"), ("version", .int 4)]),
    ("authors", .array
      [.array [.string "Zoë 😀", .string "did:plc:zoe"],
        .object [("orcid", .null), ("name", .string "Ada"), ("homepage", .bool false)]]),
    ("abstract", .string "")]

/-- The eprint as it is read. -/
def tidyEprint : Record := .eprint
  { title := "On \"quotes\", \\ and\n\x01"
    summary := ""
    authors := [⟨"Zoë 😀", some "did:plc:zoe", none⟩, ⟨"Ada", none, none⟩]
    keywords := []
    doi := none
    createdAt := "2024-05-01T00:00:00Z" }

theorem reread_toText_untidyEprint :
    ofJson untidyEprint = .ok tidyEprint ∧
      ∃ j', ofText? tidyEprint.toText = .ok j' ∧ ofJson j' = .ok tidyEprint ∧
        (ofJson j').map toText = .ok tidyEprint.toText :=
  ⟨by decide +kernel, reread_toText (show ofJson untidyEprint = _ by decide +kernel)⟩

end Record

end PaperIndex
