import PaperIndex.Proofs.Json.Values
import PaperIndex.Record.Basic

/-! # The grammar of records

Which values are accepted, and as which records. `Denotes` says it field by field, for each of the
three kinds, and `ofJson_eq_ok_iff` that this is the whole grammar: a value is accepted just if it
denotes a record, and it is accepted as the record that it denotes. The readers of the bodies are
inverted first (`readEprint_iff`, `readReview_iff`, `readEndorsement_iff`), then the checks
(`check_eprint_iff`, `check_review_iff`, `check_endorsement_iff`), and acceptance is both together
(`ofJson_iff_read`). -/

namespace PaperIndex

namespace Record

open Json

/-! ### The grammar -/

/-- **A value that names an author**, either by its fields or by its items in the order of the
fields. Other fields may stand in an object, no further items in an array. -/
inductive NamesAuthor : Json → Author → Prop
  | object {fields : List (String × Json)} {a : Author}
    (name : (Json.object fields).field? "name" = some (.string a.name))
    (did : OptionalString ((Json.object fields).field? "did") a.did)
    (orcid : OptionalString ((Json.object fields).field? "orcid") a.orcid) :
    NamesAuthor (.object fields) a
  | array {rest : List Json} {a : Author} (length : rest.length ≤ 2)
    (did : OptionalString rest[0]? a.did) (orcid : OptionalString rest[1]? a.orcid) :
    NamesAuthor (.array (.string a.name :: rest)) a

/-- A text with a character that is not blank. -/
def HasContent (s : String) : Prop := ∃ c ∈ s.toList, Text.isBlank c = false

/-- The fields of an eprint. Absent keywords are no keywords. -/
structure DenotesEprint (j : Json) (e : Eprint) : Prop where
  title : j.field? "title" = some (.string e.title)
  hasTitle : HasContent e.title
  summary : j.field? "abstract" = some (.string e.summary)
  authors : ∃ items, j.field? "authors" = some (.array items) ∧ items ≠ [] ∧
    List.Forall₂ NamesAuthor items e.authors
  keywords : (j.field? "keywords" = none ∧ e.keywords = []) ∨
    j.field? "keywords" = some (.array (e.keywords.map .string))
  doi : OptionalString (j.field? "doi") e.doi
  createdAt : j.field? "createdAt" = some (.string e.createdAt)

/-- The fields of a review comment. -/
structure DenotesReview (j : Json) (r : Review) : Prop where
  subject : j.field? "subject" = some (.string r.subject)
  isUri : ∃ uri, RecordUri.parse r.subject = .ok uri
  text : j.field? "text" = some (.string r.text)
  hasText : HasContent r.text
  createdAt : j.field? "createdAt" = some (.string r.createdAt)

/-- The fields of an endorsement. -/
structure DenotesEndorsement (j : Json) (e : Endorsement) : Prop where
  subject : j.field? "subject" = some (.string e.subject)
  isUri : ∃ uri, RecordUri.parse e.subject = .ok uri
  contributions : j.field? "contributions" = some (.array (e.contributions.map .string))
  createdAt : j.field? "createdAt" = some (.string e.createdAt)

/-- **A value that denotes a record** is an object with the type of the record and the fields of
that type, and any other fields. -/
inductive Denotes : Json → Record → Prop
  | eprint {fields : List (String × Json)} {e : Eprint}
    (type : (Json.object fields).field? "$type" = some (.string "pub.chive.eprint.submission"))
    (body : DenotesEprint (.object fields) e) : Denotes (.object fields) (.eprint e)
  | review {fields : List (String × Json)} {r : Review}
    (type : (Json.object fields).field? "$type" = some (.string "pub.chive.review.comment"))
    (body : DenotesReview (.object fields) r) : Denotes (.object fields) (.review r)
  | endorsement {fields : List (String × Json)} {e : Endorsement}
    (type : (Json.object fields).field? "$type" = some (.string "pub.chive.review.endorsement"))
    (body : DenotesEndorsement (.object fields) e) : Denotes (.object fields) (.endorsement e)

/-! ### Authors -/

theorem readAuthor_eq_ok_iff {d : Draft} {a : Author} :
    readAuthor d = .ok a ↔ ∃ parts, Parts ["name"] ["did", "orcid"] d parts ∧
      parts.lookup "name" = some (.string a.name) ∧ OptionalText (parts.lookup "did") a.did ∧
      OptionalText (parts.lookup "orcid") a.orcid := by
  unfold readAuthor
  refine (readFieldsOf_bind_eq_ok_iff ["name"] ["did", "orcid"] rfl (by decide) ?_ ?_).trans ?_
  · intro parts hnodup
    simp only [required_reverse hnodup, withDefault_reverse hnodup]
  · intro parts hread
    simp only [bind_eq_ok_iff] at hread
    obtain ⟨_, hname, _, hdid, _, horcid, -⟩ := hread
    unfold authorFields
    simp only [List.forall_mem_cons]
    exact ⟨accepts_of_required _ hname, accepts_of_withDefault (by decide) hdid,
      accepts_of_withDefault (by decide) horcid, nofun⟩
  · refine exists_congr fun parts => and_congr_right fun _ => ?_
    simp only [bind_eq_ok_iff, required_eq_ok_iff, withDefault_none_eq_ok_iff]
    constructor
    · rintro ⟨_, ⟨v, hname, hv⟩, _, hdid, _, horcid, ha⟩
      obtain rfl := Except.ok.inj ha
      exact ⟨readTextValue_eq_ok_iff.1 hv ▸ hname, hdid, horcid⟩
    · rintro ⟨hname, hdid, horcid⟩
      exact ⟨a.name, ⟨_, hname, rfl⟩, a.did, hdid, a.orcid, horcid, rfl⟩

theorem decodeValue_author_object_iff {fields : List (String × Json)} {a : Author} :
    decodeValue readAuthor (.object fields) = .ok a ↔ NamesAuthor (.object fields) a := by
  have hparts : ∀ parts, Parts ["name"] ["did", "orcid"]
      (Draft.ofValue (Json.object fields).canonical) parts ↔
        parts = named ["name", "did", "orcid"] (fieldParts (canonicalFields fields)) := fun _ =>
    parts_object_iff (nodup_canonical (.object fields))
  have hshows : Shows ["name", "did", "orcid"]
      (named ["name", "did", "orcid"] (fieldParts (canonicalFields fields))) (.object fields) :=
    shows_named fun name _ => lookup_canonical (.object fields) name
  unfold decodeValue
  simp only [readAuthor_eq_ok_iff, hparts, exists_eq_left]
  rw [hshows "name" (by simp), hshows "did" (by simp), hshows "orcid" (by simp),
    map_ofValue_eq_string_iff, optionalText_ofValue_iff, optionalText_ofValue_iff]
  constructor
  · rintro ⟨hname, hdid, horcid⟩
    exact .object hname hdid horcid
  · rintro ⟨hname, hdid, horcid⟩
    exact ⟨hname, hdid, horcid⟩

theorem decodeValue_author_array_iff {items : List Json} {a : Author} :
    decodeValue readAuthor (.array items) = .ok a ↔ NamesAuthor (.array items) a := by
  let drafts := items.map fun v => Draft.ofValue v.canonical
  have hparts : ∀ parts, Parts ["name"] ["did", "orcid"]
      (Draft.ofValue (Json.array items).canonical) parts ↔ 1 ≤ items.length ∧ items.length ≤ 3 ∧
        parts = ["name", "did", "orcid"].zip drafts := by
    intro parts
    rw [canonical, canonicalItems_eq_map, parts_array_iff, List.length_map, List.map_map]
    rfl
  unfold decodeValue
  simp only [readAuthor_eq_ok_iff, hparts, and_assoc, exists_and_left, exists_eq_left]
  cases items with
  | nil =>
    constructor
    · rintro ⟨hleast, -⟩
      exact absurd hleast (Nat.not_succ_le_zero 0)
    · rintro ⟨⟩
  | cons v rest =>
    -- What the array gives depends on the number of its items only.
    have hlookup : (["name", "did", "orcid"].zip drafts).lookup "name" =
          (some v).map (fun v => Draft.ofValue v.canonical) ∧
        (["name", "did", "orcid"].zip drafts).lookup "did" =
          rest[0]?.map (fun v => Draft.ofValue v.canonical) ∧
        (["name", "did", "orcid"].zip drafts).lookup "orcid" =
          rest[1]?.map (fun v => Draft.ofValue v.canonical) := by
      obtain _ | ⟨x, _ | ⟨y, rest⟩⟩ := rest <;> exact ⟨rfl, rfl, rfl⟩
    rw [hlookup.1, hlookup.2.1, hlookup.2.2, map_ofValue_eq_string_iff, optionalText_ofValue_iff,
      optionalText_ofValue_iff]
    constructor
    · rintro ⟨-, hlength, hname, hdid, horcid⟩
      obtain rfl := Option.some.inj hname
      exact .array (Nat.le_of_succ_le_succ hlength) hdid horcid
    · rintro ⟨⟩
      next hlength hdid horcid =>
        exact ⟨by simp, Nat.succ_le_succ hlength, rfl, hdid, horcid⟩

/-- **An author** is read from the values that name it. -/
theorem decodeValue_author_iff {v : Json} {a : Author} :
    decodeValue readAuthor v = .ok a ↔ NamesAuthor v a := by
  cases v with
  | object fields => exact decodeValue_author_object_iff
  | array items => exact decodeValue_author_array_iff
  | _ => exact iff_of_false nofun nofun

/-! ### Bodies -/

section Bodies
variable {j : Json}

theorem nodup_bodyFields (j : Json) :
    ((j.canonical.fields.filter fun f => f.1 != "$type").map Prod.fst).Nodup :=
  (nodup_canonical j).sublist (List.filter_sublist.map _)

/-- The body of a value shows every field of the value but its type. -/
theorem shows_bodyFields {names : List String} (h : "$type" ∉ names) (j : Json) : Shows names
    (named names (fieldParts (j.canonical.fields.filter fun f => f.1 != "$type"))) j := by
  refine shows_named fun name hname => ?_
  have htype : (name != "$type") = true := bne_iff_ne.2 fun heq => h (heq ▸ hname)
  rw [lookup_filter (fun _ => htype), lookup_canonical]

/-- **An eprint** is read from a value with its fields. -/
theorem readEprint_iff {e : Eprint} : readEprint (Draft.ofValue (bodyOf j)) = .ok e ↔
    j.field? "title" = some (.string e.title) ∧ j.field? "abstract" = some (.string e.summary) ∧
      (∃ items, j.field? "authors" = some (.array items) ∧
        List.Forall₂ NamesAuthor items e.authors) ∧
      ((j.field? "keywords" = none ∧ e.keywords = []) ∨
        j.field? "keywords" = some (.array (e.keywords.map .string))) ∧
      OptionalString (j.field? "doi") e.doi ∧
      j.field? "createdAt" = some (.string e.createdAt) := by
  let names := ["title", "abstract", "authors", "keywords", "doi", "createdAt"]
  have hshows : Shows names _ j := shows_bodyFields (by decide) j
  unfold readEprint bodyOf
  refine (readFieldsOf_bind_object_iff names rfl (by decide) (nodup_bodyFields j) ?_ ?_).trans ?_
  · intro parts hnodup
    simp only [required_reverse hnodup, withDefault_reverse hnodup]
  · intro parts hread
    simp only [bind_eq_ok_iff] at hread
    obtain ⟨_, htitle, _, hsummary, _, hauthors, _, hkeywords, _, hdoi, _, hcreated, -⟩ := hread
    unfold eprintFields
    simp only [List.forall_mem_cons]
    exact ⟨accepts_of_required _ htitle, accepts_of_required _ hsummary,
      accepts_of_required _ hauthors, accepts_of_withDefault (by decide) hkeywords,
      accepts_of_withDefault (by decide) hdoi, accepts_of_required _ hcreated, nofun⟩
  · simp (disch := decide) only [bind_eq_ok_iff, hshows.required_text_iff,
      hshows.required_list_iff, hshows.withDefault_texts_iff, hshows.withDefault_none_iff,
      decodeValue_author_iff]
    constructor
    · rintro ⟨_, htitle, _, hsummary, _, hauthors, _, hkeywords, _, hdoi, _, hcreated, he⟩
      obtain rfl := Except.ok.inj he
      exact ⟨htitle, hsummary, hauthors, hkeywords, hdoi, hcreated⟩
    · rintro ⟨htitle, hsummary, hauthors, hkeywords, hdoi, hcreated⟩
      exact ⟨_, htitle, _, hsummary, _, hauthors, _, hkeywords, _, hdoi, _, hcreated, rfl⟩

/-- **A review comment** is read from a value with its fields. -/
theorem readReview_iff {r : Review} : readReview (Draft.ofValue (bodyOf j)) = .ok r ↔
    j.field? "subject" = some (.string r.subject) ∧ j.field? "text" = some (.string r.text) ∧
      j.field? "createdAt" = some (.string r.createdAt) := by
  let names := ["subject", "text", "createdAt"]
  have hshows : Shows names _ j := shows_bodyFields (by decide) j
  unfold readReview bodyOf
  refine (readFieldsOf_bind_object_iff names rfl (by decide) (nodup_bodyFields j) ?_ ?_).trans ?_
  · intro parts hnodup
    simp only [required_reverse hnodup]
  · intro parts hread
    simp only [bind_eq_ok_iff] at hread
    obtain ⟨_, hsubject, _, htext, _, hcreated, -⟩ := hread
    unfold reviewFields
    simp only [List.forall_mem_cons]
    exact ⟨accepts_of_required _ hsubject, accepts_of_required _ htext,
      accepts_of_required _ hcreated, nofun⟩
  · simp (disch := decide) only [bind_eq_ok_iff, hshows.required_text_iff]
    constructor
    · rintro ⟨_, hsubject, _, htext, _, hcreated, hr⟩
      obtain rfl := Except.ok.inj hr
      exact ⟨hsubject, htext, hcreated⟩
    · rintro ⟨hsubject, htext, hcreated⟩
      exact ⟨_, hsubject, _, htext, _, hcreated, rfl⟩

/-- **An endorsement** is read from a value with its fields. -/
theorem readEndorsement_iff {e : Endorsement} : readEndorsement (Draft.ofValue (bodyOf j)) = .ok e ↔
    j.field? "subject" = some (.string e.subject) ∧
      j.field? "contributions" = some (.array (e.contributions.map .string)) ∧
      j.field? "createdAt" = some (.string e.createdAt) := by
  let names := ["subject", "contributions", "createdAt"]
  have hshows : Shows names _ j := shows_bodyFields (by decide) j
  unfold readEndorsement bodyOf
  refine (readFieldsOf_bind_object_iff names rfl (by decide) (nodup_bodyFields j) ?_ ?_).trans ?_
  · intro parts hnodup
    simp only [required_reverse hnodup]
  · intro parts hread
    simp only [bind_eq_ok_iff] at hread
    obtain ⟨_, hsubject, _, hcontributions, _, hcreated, -⟩ := hread
    unfold endorsementFields
    simp only [List.forall_mem_cons]
    exact ⟨accepts_of_required _ hsubject, accepts_of_required _ hcontributions,
      accepts_of_required _ hcreated, nofun⟩
  · simp (disch := decide) only [bind_eq_ok_iff, hshows.required_text_iff,
      hshows.required_texts_iff]
    constructor
    · rintro ⟨_, hsubject, _, hcontributions, _, hcreated, he⟩
      obtain rfl := Except.ok.inj he
      exact ⟨hsubject, hcontributions, hcreated⟩
    · rintro ⟨hsubject, hcontributions, hcreated⟩
      exact ⟨_, hsubject, _, hcontributions, _, hcreated, rfl⟩

end Bodies

/-! ### Checks -/

theorem map_eq_ok_iff {ε α β : Type} {x : Except ε α} {f : α → β} {b : β} :
    x.map f = .ok b ↔ ∃ a, x = .ok a ∧ f a = b := by
  cases x <;> simp [Except.map]

theorem hasContent_iff {s : String} : HasContent s ↔ Text.isBlankText s = false := by
  unfold HasContent Text.isBlankText
  simp

/-- **An eprint passes its check** if its title has content and it has authors. -/
theorem check_eprint_iff {e : Eprint} :
    check (.eprint e) = .ok () ↔ HasContent e.title ∧ e.authors ≠ [] := by
  rw [hasContent_iff]
  by_cases hblank : Text.isBlankText e.title = true <;> simp [check, hblank]

/-- **A review comment passes its check** if its text has content and its subject is the URI of a
record. -/
theorem check_review_iff {r : Review} : check (.review r) = .ok () ↔
    HasContent r.text ∧ ∃ uri, RecordUri.parse r.subject = .ok uri := by
  rw [hasContent_iff]
  by_cases hblank : Text.isBlankText r.text = true <;> simp [check, hblank, map_eq_ok_iff]

/-- **An endorsement passes its check** if its subject is the URI of a record. -/
theorem check_endorsement_iff {e : Endorsement} :
    check (.endorsement e) = .ok () ↔ ∃ uri, RecordUri.parse e.subject = .ok uri := by
  simp [check, map_eq_ok_iff]

/-! ### Records -/

section Denotes
variable {j : Json}

theorem denotesEprint_iff {e : Eprint} : DenotesEprint j e ↔
    readEprint (Draft.ofValue (bodyOf j)) = .ok e ∧ check (.eprint e) = .ok () := by
  rw [readEprint_iff, check_eprint_iff]
  constructor
  · rintro ⟨htitle, hcontent, hsummary, ⟨items, hitems, hsome, hauthors⟩, hkeywords, hdoi, hcreated⟩
    refine ⟨⟨htitle, hsummary, ⟨items, hitems, hauthors⟩, hkeywords, hdoi, hcreated⟩, hcontent, ?_⟩
    intro hnone
    rw [hnone, List.forall₂_nil_right_iff] at hauthors
    exact hsome hauthors
  · rintro ⟨⟨htitle, hsummary, ⟨items, hitems, hauthors⟩, hkeywords, hdoi, hcreated⟩, hcontent,
      hsome⟩
    refine ⟨htitle, hcontent, hsummary, ⟨items, hitems, ?_, hauthors⟩, hkeywords, hdoi, hcreated⟩
    intro hnone
    rw [hnone, List.forall₂_nil_left_iff] at hauthors
    exact hsome hauthors

theorem denotesReview_iff {r : Review} : DenotesReview j r ↔
    readReview (Draft.ofValue (bodyOf j)) = .ok r ∧ check (.review r) = .ok () := by
  rw [readReview_iff, check_review_iff]
  constructor
  · rintro ⟨hsubject, huri, htext, hcontent, hcreated⟩
    exact ⟨⟨hsubject, htext, hcreated⟩, hcontent, huri⟩
  · rintro ⟨⟨hsubject, htext, hcreated⟩, hcontent, huri⟩
    exact ⟨hsubject, huri, htext, hcontent, hcreated⟩

theorem denotesEndorsement_iff {e : Endorsement} : DenotesEndorsement j e ↔
    readEndorsement (Draft.ofValue (bodyOf j)) = .ok e ∧ check (.endorsement e) = .ok () := by
  rw [readEndorsement_iff, check_endorsement_iff]
  constructor
  · rintro ⟨hsubject, huri, hcontributions, hcreated⟩
    exact ⟨⟨hsubject, hcontributions, hcreated⟩, huri⟩
  · rintro ⟨⟨hsubject, hcontributions, hcreated⟩, huri⟩
    exact ⟨hsubject, huri, hcontributions, hcreated⟩

/-- What a value denotes, by the kind of the record. Only an object has a type. -/
theorem denotes_iff {r : Record} : Denotes j r ↔
    j.field? "$type" = some (.string r.typeName) ∧
      match r with
      | .eprint e => DenotesEprint j e
      | .review r => DenotesReview j r
      | .endorsement e => DenotesEndorsement j e := by
  constructor
  · rintro (⟨htype, hbody⟩ | ⟨htype, hbody⟩ | ⟨htype, hbody⟩) <;> exact ⟨htype, hbody⟩
  · rintro ⟨htype, hbody⟩
    cases j with
    | object fields =>
      cases r with
      | eprint e => exact .eprint htype hbody
      | review r => exact .review htype hbody
      | endorsement e => exact .endorsement htype hbody
    | _ => cases htype

end Denotes

theorem kind_of_readBody {k : RecordKind} {d : Draft} {r : Record} (h : readBody k d = .ok r) :
    r.kind = k := by
  cases k <;>
  · obtain ⟨_, -, rfl⟩ := map_eq_ok_iff.1 h
    rfl

/-- A value is accepted as a record if it has the type of the record, its body is read as the
record, and the record passes its check. -/
theorem ofJson_iff_read {j : Json} {r : Record} :
    ofJson j = .ok r ↔ j.field? "$type" = some (.string r.typeName) ∧
      readBody r.kind (Draft.ofValue (bodyOf j)) = .ok r ∧ r.check = .ok () := by
  have htype : ∀ {s}, (j.field? "$type").bind Json.text? = some s ↔
      j.field? "$type" = some (.string s) := by
    simp [Option.bind_eq_some_iff, text?_eq_some_iff]
  unfold ofJson
  constructor
  · intro h
    split at h
    · cases h
    · next type hfound =>
      split at h
      · cases h
      · next k hk =>
        split at h
        · cases h
        · next r' hread =>
          obtain ⟨_, hcheck, rfl⟩ := map_eq_ok_iff.1 h
          obtain rfl := kind_of_readBody hread
          obtain rfl := name_of_ofName? hk
          exact ⟨htype.1 hfound, hread, hcheck⟩
  · rintro ⟨hfound, hread, hcheck⟩
    simp only [htype.2 hfound, typeName, ofName?_name, hread, hcheck]
    rfl

/-- **The grammar of records**: a value is accepted just if it denotes a record, and it is accepted
as the record that it denotes. -/
theorem ofJson_eq_ok_iff (j : Json) (r : Record) : ofJson j = .ok r ↔ Denotes j r := by
  rw [ofJson_iff_read, denotes_iff]
  refine and_congr_right fun _ => ?_
  cases r with
  | eprint e => simp [readBody, kind, map_eq_ok_iff, denotesEprint_iff]
  | review r => simp [readBody, kind, map_eq_ok_iff, denotesReview_iff]
  | endorsement e => simp [readBody, kind, map_eq_ok_iff, denotesEndorsement_iff]

end Record

end PaperIndex
