import PaperIndex.Network.Identity
import PaperIndex.Proofs.Json.Fields
import PaperIndex.Sync.Remote

/-! # What the bodies of responses say

Three kinds of bodies are read: the statement of a record, the refusal of a request, and the
document of an authority with its services. Each is said here in terms of the parts that the body
has to give, and shown to be read just if it gives them. -/

namespace PaperIndex

open Json

/-- A body is a JSON text that gives parts to declared names. -/
def Gives (names spare : List String) (body : String) (parts : List (String × Draft)) : Prop :=
  ∃ d, draftOf body = (d, false) ∧ Parts names spare d parts

/-! ### Records and refusals -/

namespace Remote

/-- **A body that states a record**: it has a text as the URI, a text as the content identifier, and
a value. -/
def StatesRecord (body uri cid : String) (value : Json) : Prop :=
  ∃ parts, Gives ["uri", "cid", "value"] [] body parts ∧
    parts.lookup "uri" = some (.string uri) ∧ parts.lookup "cid" = some (.string cid) ∧
    ∃ v, parts.lookup "value" = some v ∧ v.value? = .ok value

/-- **A body that denies a record**: its error is that the record has not been found. It may have a
message, which is a text. -/
def SaysNotFound (body : String) : Prop :=
  ∃ parts, Gives ["error", "message"] [] body parts ∧
    parts.lookup "error" = some (.string "RecordNotFound") ∧
    ∃ wording, OptionalText (parts.lookup "message") wording

theorem readStatement_eq_ok_iff {d : Draft} {s : Statement} :
    readStatement d = .ok s ↔ ∃ parts, Parts ["uri", "cid", "value"] [] d parts ∧
      parts.lookup "uri" = some (.string s.uri) ∧ OptionalText (parts.lookup "cid") s.cid ∧
      ∃ v, parts.lookup "value" = some v ∧ v.value? = .ok s.value := by
  unfold readStatement
  refine (readFieldsOf_bind_eq_ok_iff ["uri", "cid", "value"] [] rfl (by decide) ?_ ?_).trans ?_
  · intro parts hnodup
    simp only [required_reverse hnodup, withDefault_reverse hnodup]
  · intro parts hread
    simp only [bind_eq_ok_iff] at hread
    obtain ⟨_, huri, _, hcid, _, hvalue, -⟩ := hread
    simp only [List.forall_mem_cons]
    exact ⟨accepts_of_required _ huri, accepts_of_withDefault (by decide) hcid,
      accepts_of_required _ hvalue, nofun⟩
  · refine exists_congr fun parts => and_congr_right fun _ => ?_
    simp only [bind_eq_ok_iff, required_eq_ok_iff, withDefault_none_eq_ok_iff]
    constructor
    · rintro ⟨_, ⟨v, huri, hv⟩, _, hcid, _, ⟨v', hvalue, hv'⟩, hs⟩
      obtain rfl := Except.ok.inj hs
      exact ⟨readTextValue_eq_ok_iff.1 hv ▸ huri, hcid, v', hvalue, liftProblem_eq_ok_iff.1 hv'⟩
    · rintro ⟨huri, hcid, v, hvalue, hv⟩
      exact ⟨s.uri, ⟨_, huri, rfl⟩, s.cid, hcid, s.value,
        ⟨v, hvalue, liftProblem_eq_ok_iff.2 hv⟩, rfl⟩

theorem readRefusal_eq_ok_iff {d : Draft} {r : Refusal} :
    readRefusal d = .ok r ↔ ∃ parts, Parts ["error", "message"] [] d parts ∧
      OptionalText (parts.lookup "error") r.name ∧
      OptionalText (parts.lookup "message") r.wording := by
  unfold readRefusal
  refine (readFieldsOf_bind_eq_ok_iff ["error", "message"] [] rfl (by decide) ?_ ?_).trans ?_
  · intro parts hnodup
    simp only [withDefault_reverse hnodup]
  · intro parts hread
    simp only [bind_eq_ok_iff] at hread
    obtain ⟨_, hname, _, hwording, -⟩ := hread
    simp only [List.forall_mem_cons]
    exact ⟨accepts_of_withDefault (by decide) hname, accepts_of_withDefault (by decide) hwording,
      nofun⟩
  · refine exists_congr fun parts => and_congr_right fun _ => ?_
    simp only [bind_eq_ok_iff, withDefault_none_eq_ok_iff]
    constructor
    · rintro ⟨_, hname, _, hwording, hr⟩
      obtain rfl := Except.ok.inj hr
      exact ⟨hname, hwording⟩
    · rintro ⟨hname, hwording⟩
      exact ⟨r.name, hname, r.wording, hwording, rfl⟩

theorem decodeText_readStatement_iff {body uri cid : String} {value : Json} :
    decodeText readStatement body = .ok ⟨uri, some cid, value⟩ ↔
      StatesRecord body uri cid value := by
  rw [decodeText_eq_ok_iff]
  simp only [readStatement_eq_ok_iff, optionalText_some_iff]
  constructor
  · rintro ⟨d, hd, parts, hparts, hread⟩
    exact ⟨parts, ⟨d, hd, hparts⟩, hread⟩
  · rintro ⟨parts, ⟨d, hd, hparts⟩, hread⟩
    exact ⟨d, hd, parts, hparts, hread⟩

theorem name_refusalOf_iff {body : String} :
    (refusalOf body).name = some "RecordNotFound" ↔ SaysNotFound body := by
  have hdecode : (refusalOf body).name = some "RecordNotFound" ↔
      ∃ wording, decodeText readRefusal body = .ok ⟨some "RecordNotFound", wording⟩ := by
    unfold refusalOf
    cases decodeText readRefusal body with
    | error e => simp
    | ok r => cases r; simp
  rw [hdecode]
  simp only [decodeText_eq_ok_iff, readRefusal_eq_ok_iff, optionalText_some_iff]
  constructor
  · rintro ⟨wording, d, hd, parts, hparts, hname, hwording⟩
    exact ⟨parts, ⟨d, hd, hparts⟩, hname, wording, hwording⟩
  · rintro ⟨parts, ⟨d, hd, hparts⟩, hname, wording, hwording⟩
    exact ⟨wording, d, hd, parts, hparts, hname, hwording⟩

end Remote

/-! ### Documents -/

namespace Identity

/-- A service as a draft gives it. -/
def StatesService (d : Draft) (s : Service) : Prop :=
  ∃ parts, Parts ["id", "type", "serviceEndpoint"] [] d parts ∧
    parts.lookup "id" = some (.string s.id) ∧ OptionalText (parts.lookup "type") s.type ∧
    ∃ v, parts.lookup "serviceEndpoint" = some v ∧ v.value? = .ok s.endpoint

theorem readService_eq_ok_iff {d : Draft} {s : Service} :
    readService d = .ok s ↔ StatesService d s := by
  unfold readService
  refine (readFieldsOf_bind_eq_ok_iff ["id", "type", "serviceEndpoint"] [] rfl (by decide) ?_
    ?_).trans ?_
  · intro parts hnodup
    simp only [required_reverse hnodup, withDefault_reverse hnodup]
  · intro parts hread
    simp only [bind_eq_ok_iff] at hread
    obtain ⟨_, hid, _, htype, _, hendpoint, -⟩ := hread
    unfold serviceFields
    simp only [List.forall_mem_cons]
    exact ⟨accepts_of_required _ hid, accepts_of_withDefault (by decide) htype,
      accepts_of_required _ hendpoint, nofun⟩
  · refine exists_congr fun parts => and_congr_right fun _ => ?_
    simp only [bind_eq_ok_iff, required_eq_ok_iff, withDefault_none_eq_ok_iff]
    constructor
    · rintro ⟨_, ⟨v, hid, hv⟩, _, htype, _, ⟨v', hendpoint, hv'⟩, hs⟩
      obtain rfl := Except.ok.inj hs
      exact ⟨readTextValue_eq_ok_iff.1 hv ▸ hid, htype, v', hendpoint,
        liftProblem_eq_ok_iff.1 hv'⟩
    · rintro ⟨hid, htype, v, hendpoint, hv⟩
      exact ⟨s.id, ⟨_, hid, rfl⟩, s.type, htype, s.endpoint,
        ⟨v, hendpoint, liftProblem_eq_ok_iff.2 hv⟩, rfl⟩

theorem readDocument_eq_ok_iff {d : Draft} {services : List Service} :
    readDocument d = .ok services ↔ ∃ parts, Parts [] ["service"] d parts ∧
      ((parts.lookup "service" = none ∧ services = []) ∨
        ∃ items, parts.lookup "service" = some (.array items none) ∧
          List.Forall₂ StatesService items services) := by
  unfold readDocument
  refine (readFieldsOf_bind_eq_ok_iff [] ["service"] rfl (by decide) ?_ ?_).trans ?_
  · intro parts hnodup
    exact withDefault_reverse hnodup []
  · intro parts hread
    simp only [List.forall_mem_cons]
    exact ⟨accepts_of_withDefault (by decide) hread, nofun⟩
  · refine exists_congr fun parts => and_congr_right fun _ => ?_
    simp only [withDefault_eq_ok_iff, readList_eq_ok_iff, readService_eq_ok_iff]
    refine or_congr_right ⟨?_, ?_⟩
    · rintro ⟨_, hservice, items, rfl, hitems⟩
      exact ⟨items, hservice, hitems⟩
    · rintro ⟨items, hservice, hitems⟩
      exact ⟨_, hservice, items, rfl, hitems⟩

/-- A service is a server of records by its identifier or by its type. -/
def Service.IsRecordServer (s : Service) : Prop :=
  (∃ front, s.id = front ++ "#atproto_pds") ∨ s.type = some "AtprotoPersonalDataServer"

/-- **A document that lists a server**: among its services the first server of records has a text as
its endpoint. -/
def ListsServer (body endpoint : String) : Prop :=
  ∃ parts items, Gives [] ["service"] body parts ∧
    parts.lookup "service" = some (.array items none) ∧
    ∃ before s after, List.Forall₂ StatesService items (before ++ s :: after) ∧
      (∀ b ∈ before, ¬b.IsRecordServer) ∧ s.IsRecordServer ∧ s.endpoint = .string endpoint

theorem hasEnd_iff {ending s : String} :
    Text.hasEnd ending s = true ↔ ∃ front, s = front ++ ending := by
  unfold Text.hasEnd
  rw [List.isSuffixOf_iff_suffix]
  constructor
  · rintro ⟨front, hfront⟩
    refine ⟨String.ofList front, String.toList_inj.1 ?_⟩
    rw [String.toList_append, String.toList_ofList, hfront]
  · rintro ⟨front, rfl⟩
    exact ⟨front.toList, String.toList_append.symm⟩

theorem isServer_iff {s : Service} : s.isServer = true ↔ s.IsRecordServer := by
  unfold Service.isServer Service.IsRecordServer
  rw [Bool.or_eq_true, hasEnd_iff, beq_iff_eq]

theorem find?_isServer_iff {services : List Service} {s : Service} :
    services.find? Service.isServer = some s ↔ s.IsRecordServer ∧
      ∃ before after, services = before ++ s :: after ∧ ∀ b ∈ before, ¬b.IsRecordServer := by
  rw [List.find?_eq_some_iff_append]
  simp only [isServer_iff, Bool.not_eq_true', ← Bool.not_eq_true]

/-- **The server of a document** is the first one that it lists, without slashes at its end. -/
theorem exists_server_iff {body endpoint : String} :
    (∃ services, decodeText readDocument body = .ok services ∧
        serverOf? services = some endpoint) ↔
      ∃ e, ListsServer body e ∧ Text.trimEndSlashes e = endpoint := by
  unfold serverOf?
  simp only [Option.bind_eq_bind, Option.bind_eq_some_iff, Option.map_eq_some_iff,
    text?_eq_some_iff, find?_isServer_iff, decodeText_eq_ok_iff, readDocument_eq_ok_iff]
  constructor
  · rintro ⟨services, ⟨d, hd, parts, hparts, hservices⟩, s, ⟨hserver, before, after, rfl, hfirst⟩, e,
      hendpoint, htrim⟩
    rcases hservices with ⟨-, hnone⟩ | ⟨items, hservice, hitems⟩
    · simp at hnone
    · exact ⟨e, ⟨parts, items, ⟨d, hd, hparts⟩, hservice, before, s, after, hitems, hfirst, hserver,
        hendpoint⟩, htrim⟩
  · rintro ⟨e, ⟨parts, items, ⟨d, hd, hparts⟩, hservice, before, s, after, hitems, hfirst, hserver,
      hendpoint⟩, htrim⟩
    exact ⟨before ++ s :: after, ⟨d, hd, parts, hparts, .inr ⟨items, hservice, hitems⟩⟩, s,
      ⟨hserver, before, after, rfl, hfirst⟩, e, hendpoint, htrim⟩

end Identity

end PaperIndex
