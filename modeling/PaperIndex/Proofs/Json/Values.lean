import Mathlib.Data.String.Basic
import PaperIndex.Proofs.Json.Fields

/-! # What typed data is read from values

A value is read in canonical form: every object has its fields in the order of their keys, each key
once, with the last value that was given for it (`lookup_canonical`). So what a type with fields
reads from an object is told by `field?` for the declared names, in whatever order and however often
they were written (`Shows`), and the other fields are of no account
(`readFieldsOf_bind_object_iff`). The readers of single values are inverted in the same terms. -/

namespace PaperIndex.Json

variable {α : Type}

/-! ### Canonical form -/

section Canonical
variable {fields : List (String × Json)}

theorem pairwise_addField (h : (fields.map Prod.fst).Pairwise (· < ·)) (k : String) (j : Json) :
    ((addField k j fields).map Prod.fst).Pairwise (· < ·) := by
  induction fields with
  | nil => exact List.pairwise_singleton _ _
  | cons f fields ih =>
    obtain ⟨k', j'⟩ := f
    obtain ⟨hleast, hrest⟩ := List.pairwise_cons.1 h
    rw [addField]
    split
    · exact h
    · next hne =>
      split
      · next hlt =>
        refine List.pairwise_cons.2 ⟨fun name hname => ?_, h⟩
        rcases List.mem_cons.1 hname with rfl | hname
        · exact hlt
        · exact hlt.trans (hleast name hname)
      · next hge =>
        have hgt : k' < k := lt_of_le_of_ne (not_lt.1 hge) (Ne.symm hne)
        refine List.pairwise_cons.2 ⟨fun name hname => ?_, ih hrest⟩
        rcases (keys_addField k j fields name).1 hname with rfl | hname
        · exact hgt
        · exact hleast name hname

theorem pairwise_canonicalFields (fields : List (String × Json)) :
    ((canonicalFields fields).map Prod.fst).Pairwise (· < ·) := by
  induction fields with
  | nil => exact List.Pairwise.nil
  | cons f fields ih => exact pairwise_addField ih f.1 f.2.canonical

/-- Among fields in order, a field that is added gives way to the one that is there. -/
theorem lookup_addField (h : (fields.map Prod.fst).Pairwise (· < ·)) (k : String) (j : Json)
    (name : String) : (addField k j fields).lookup name =
      if name = k then some ((fields.lookup k).getD j) else fields.lookup name := by
  induction fields with
  | nil =>
    rw [addField, List.lookup_cons]
    by_cases hname : name = k
    · simp [hname]
    · simp [hname, beq_false_of_ne hname]
  | cons f fields ih =>
    obtain ⟨k', j'⟩ := f
    obtain ⟨hleast, hrest⟩ := List.pairwise_cons.1 h
    rw [addField]
    by_cases hk : k = k'
    · subst hk
      by_cases hname : name = k <;> simp [hname, List.lookup_cons]
    · rw [if_neg hk]
      by_cases hlt : k < k'
      · -- The key is less than all others, so it has no field yet.
        have hnone : ((k', j') :: fields).lookup k = none := by
          refine List.lookup_eq_none_iff.2 fun f hf => bne_iff_ne.2 ?_
          rcases List.mem_cons.1 hf with rfl | hf
          · exact hk
          · exact (hlt.trans (hleast f.1 (List.mem_map_of_mem hf))).ne
        rw [if_pos hlt, List.lookup_cons, hnone]
        by_cases hname : name = k
        · simp [hname]
        · rw [if_neg hname, beq_false_of_ne hname]
      · rw [if_neg hlt, List.lookup_cons, ih hrest, List.lookup_cons, List.lookup_cons,
          beq_false_of_ne hk]
        by_cases hname : name = k'
        · simp [hname, Ne.symm hk]
        · rw [beq_false_of_ne hname]

theorem lookup_canonicalFields (fields : List (String × Json)) (name : String) :
    (canonicalFields fields).lookup name = (fields.reverse.lookup name).map canonical := by
  induction fields with
  | nil => rfl
  | cons f fields ih =>
    obtain ⟨k, j⟩ := f
    rw [canonicalFields, lookup_addField (pairwise_canonicalFields fields), List.reverse_cons,
      List.lookup_append, ih]
    by_cases hname : name = k
    · subst hname
      rw [if_pos rfl, ih, List.lookup_cons, beq_self_eq_true]
      cases fields.reverse.lookup name <;> rfl
    · rw [if_neg hname, List.lookup_cons, beq_false_of_ne hname]
      cases fields.reverse.lookup name <;> rfl

/-- **The fields of a value** in canonical form are those that it tells, each in canonical form. -/
theorem lookup_canonical (j : Json) (name : String) :
    j.canonical.fields.lookup name = (j.field? name).map canonical := by
  cases j with
  | object fields => exact lookup_canonicalFields fields name
  | _ => rfl

theorem nodup_canonical (j : Json) : (j.canonical.fields.map Prod.fst).Nodup := by
  cases j with
  | object fields => exact (pairwise_canonicalFields fields).imp fun h => h.ne
  | _ => exact List.nodup_nil

end Canonical

/-! ### Drafts of values -/

theorem draftsOf_eq_map (items : List Json) : draftsOf items = items.map Draft.ofValue := by
  induction items with
  | nil => rfl
  | cons j items ih => rw [draftsOf, ih, List.map_cons]

/-- The drafts of fields, under their keys. -/
def fieldParts (fields : List (String × Json)) : List (String × Draft) :=
  fields.map fun f => (f.1, Draft.ofValue f.2)

theorem fieldDraftsOf_eq (fields : List (String × Json)) :
    fieldDraftsOf fields = draftFields (fieldParts fields) := by
  induction fields with
  | nil => rfl
  | cons f fields ih =>
    rw [fieldDraftsOf, ih]
    rfl

theorem map_fst_fieldParts (fields : List (String × Json)) :
    (fieldParts fields).map Prod.fst = fields.map Prod.fst := by
  simp [fieldParts]

theorem lookup_fieldParts (fields : List (String × Json)) (name : String) :
    (fieldParts fields).lookup name = (fields.lookup name).map Draft.ofValue := by
  induction fields with
  | nil => rfl
  | cons f fields ih =>
    change ((f.1, Draft.ofValue f.2) :: fieldParts fields).lookup name = _
    rw [List.lookup_cons, List.lookup_cons, ih]
    by_cases hname : name = f.1
    · simp [hname]
    · rw [beq_false_of_ne hname]

theorem lookup_filter {p : String × α → Bool} {name : String} (h : ∀ a, p (name, a) = true)
    (fields : List (String × α)) : (fields.filter p).lookup name = fields.lookup name := by
  induction fields with
  | nil => rfl
  | cons f fields ih =>
    obtain ⟨k, a⟩ := f
    by_cases hk : p (k, a) = true
    · rw [List.filter_cons_of_pos hk, List.lookup_cons, List.lookup_cons, ih]
    · have hname : name ≠ k := fun hname => hk (hname ▸ h a)
      rw [List.filter_cons_of_neg hk, ih, List.lookup_cons, beq_false_of_ne hname]

mutual

/-- The draft of a value can be skipped. -/
theorem skip_ofValue : ∀ j : Json, (Draft.ofValue j).skip = .ok ()
  | .null | .bool _ | .number _ | .string _ => rfl
  | .array items => by
    rw [Draft.ofValue, Draft.skip, skipItems_draftsOf items]
    rfl
  | .object fields => by
    rw [Draft.ofValue, Draft.skip, skipFields_fieldDraftsOf fields]
    rfl

theorem skipItems_draftsOf : ∀ items : List Json, skipItems (draftsOf items) = .ok ()
  | [] => rfl
  | j :: items => by
    rw [draftsOf, skipItems, skip_ofValue j]
    exact skipItems_draftsOf items

theorem skipFields_fieldDraftsOf :
    ∀ fields : List (String × Json), skipFields (fieldDraftsOf fields) = .ok ()
  | [] => rfl
  | (k, j) :: fields => by
    rw [fieldDraftsOf, skipFields, skip_ofValue j]
    exact skipFields_fieldDraftsOf fields

end

/-! ### Fields -/

theorem draftFields_injective : Function.Injective draftFields :=
  List.map_injective_iff.2 fun f g h => by
    obtain ⟨hkey, hdraft⟩ := Prod.mk.inj h
    exact Prod.ext (Option.some.inj hkey) hdraft

section Fields
variable {names spare : List String} {fields : List (String × Json)}
  {parts : List (String × Draft)}

theorem ofValue_object (fields : List (String × Json)) :
    Draft.ofValue (.object fields) = .object (draftFields (fieldParts fields)) none := by
  rw [Draft.ofValue, fieldDraftsOf_eq]

theorem skip_of_mem_fieldParts {f : String × Draft} (h : f ∈ fieldParts fields) :
    f.2.skip = .ok () := by
  obtain ⟨f, -, rfl⟩ := List.mem_map.1 h
  exact skip_ofValue f.2

theorem nodup_named (hnodup : (fields.map Prod.fst).Nodup) (names : List String) :
    ((named names (fieldParts fields)).map Prod.fst).Nodup := by
  rw [← map_fst_fieldParts] at hnodup
  exact hnodup.sublist (List.filter_sublist.map _)

/-- **The parts of an object** whose keys are different are its declared fields. -/
theorem parts_object_iff (hnodup : (fields.map Prod.fst).Nodup) :
    Parts names spare (Draft.ofValue (.object fields)) parts ↔
      parts = named (names ++ spare) (fieldParts fields) := by
  rw [ofValue_object]
  constructor
  · intro h
    generalize hall : draftFields (fieldParts fields) = all at h
    cases h with
    | object => rw [draftFields_injective hall]
  · rintro rfl
    exact .object (fun f hf _ => skip_of_mem_fieldParts hf) (nodup_named hnodup _)

/-- **The parts of an array** are its items, in the order of the names. -/
theorem parts_array_iff {items : List Json} :
    Parts names spare (Draft.ofValue (.array items)) parts ↔
      names.length ≤ items.length ∧ items.length ≤ (names ++ spare).length ∧
        parts = (names ++ spare).zip (items.map Draft.ofValue) := by
  rw [Draft.ofValue, draftsOf_eq_map]
  constructor
  · rintro ⟨⟩
    next hleast hmost => exact ⟨by simpa using hleast, by simpa using hmost, rfl⟩
  · rintro ⟨hleast, hmost, rfl⟩
    exact .array (by simpa using hleast) (by simpa using hmost)

/-- **A type with fields** is read from the declared fields of an object whose keys are different,
whichever of them may be absent. -/
theorem readFieldsOf_bind_object_iff (names : List String) {source : Source} {name : String}
    {specs : List FieldSpec} {make : List (String × Draft) → Decoded α} {a : α}
    (hspecs : specs.map (·.name) = names) (hnames : names.Nodup)
    (hnodup : (fields.map Prod.fst).Nodup)
    (hmake : ∀ {parts}, (parts.map Prod.fst).Nodup → make parts.reverse = make parts)
    (haccepts : ∀ {parts}, make parts = .ok a → ∀ spec ∈ specs, spec.Accepts parts) :
    (readFieldsOf source name specs (Draft.ofValue (.object fields)) >>= make) = .ok a ↔
      make (named names (fieldParts fields)) = .ok a := by
  subst hspecs
  rw [ofValue_object, bind_eq_ok_iff]
  simp only [readFieldsOf_object_iff hnames, true_and]
  constructor
  · rintro ⟨_, ⟨all, hall, -, hparts, -, rfl⟩, hmade⟩
    rwa [draftFields_injective hall, ← hmake hparts]
  · intro hmade
    have hparts := nodup_named hnodup (specs.map (·.name))
    exact ⟨_, ⟨_, rfl, fun f hf _ => skip_of_mem_fieldParts hf, hparts, haccepts hmade, rfl⟩,
      (hmake hparts).trans hmade⟩

end Fields

/-! ### Readers of values -/

theorem decodeValue_text_iff {v : Json} {s : String} :
    decodeValue readTextValue v = .ok s ↔ v = .string s := by
  cases v <;> simp [decodeValue, canonical, Draft.ofValue]

/-- **A list** is read from an array, item by item. -/
theorem decodeValue_list_iff {read : Draft → Decoded α} {v : Json} {as : List α} :
    decodeValue (readList read) v = .ok as ↔ ∃ items, v = .array items ∧
      List.Forall₂ (fun v a => decodeValue read v = .ok a) items as := by
  unfold decodeValue
  rw [readList_eq_ok_iff]
  cases v with
  | array items =>
    rw [canonical, canonicalItems_eq_map, Draft.ofValue, draftsOf_eq_map, List.map_map]
    simp only [Draft.array.injEq, and_true, array.injEq, exists_eq_left', List.forall₂_map_left_iff]
    rfl
  | _ => simp [canonical, Draft.ofValue]

theorem decodeValue_texts_iff {v : Json} {ss : List String} :
    decodeValue (readList readTextValue) v = .ok ss ↔ v = .array (ss.map .string) := by
  have hitems : ∀ items, List.Forall₂ (fun v s => v = Json.string s) items ss ↔
      items = ss.map .string := by
    intro items
    rw [← List.forall₂_map_right_iff (R := Eq), List.forall₂_eq_eq_eq]
  simp only [decodeValue_list_iff, decodeValue_text_iff, hitems, exists_eq_right]

/-! ### What fields show -/

/-- **Parts that show a value**: under each of the names they have what the value has. -/
def Shows (names : List String) (parts : List (String × Draft)) (j : Json) : Prop :=
  ∀ name ∈ names, parts.lookup name = (j.field? name).map fun v => Draft.ofValue v.canonical

theorem shows_named {names : List String} {fields : List (String × Json)} {j : Json}
    (h : ∀ name ∈ names, fields.lookup name = (j.field? name).map canonical) :
    Shows names (named names (fieldParts fields)) j := by
  intro name hname
  have hnamed : (named names (fieldParts fields)).lookup name = (fieldParts fields).lookup name :=
    lookup_filter (fun _ => decide_eq_true hname) _
  rw [hnamed, lookup_fieldParts, h name hname, Option.map_map]
  rfl

/-- An optional text as a value gives it: nothing and `null` stand for none. -/
inductive OptionalString : Option Json → Option String → Prop
  | absent : OptionalString none none
  | null : OptionalString (some .null) none
  | text (s : String) : OptionalString (some (.string s)) (some s)

theorem optionalText_ofValue_iff {v : Option Json} {o : Option String} :
    OptionalText (v.map fun v => Draft.ofValue v.canonical) o ↔ OptionalString v o := by
  constructor
  · intro h
    cases v with
    | none =>
      cases h
      exact .absent
    | some v =>
      cases v with
      | null =>
        cases h
        exact .null
      | string s =>
        cases h
        exact .text s
      | _ => cases h
  · rintro ⟨⟩
    · exact .absent
    · exact .null
    · exact .text _

@[simp] theorem optionalString_some_iff {v : Option Json} {s : String} :
    OptionalString v (some s) ↔ v = some (.string s) := by
  constructor
  · rintro ⟨⟩
    rfl
  · rintro rfl
    exact .text s

theorem map_ofValue_eq_string_iff {v : Option Json} {s : String} :
    (v.map fun v => Draft.ofValue v.canonical) = some (.string s) ↔ v = some (.string s) := by
  rw [← optionalText_some_iff, optionalText_ofValue_iff, optionalString_some_iff]

section Shown
variable {names : List String} {parts : List (String × Draft)} {j : Json}
  (h : Shows names parts j) {name : String} (hname : name ∈ names)
include h hname

theorem Shows.required_iff {read : Draft → Decoded α} {a : α} :
    required parts name read = .ok a ↔
      ∃ v, j.field? name = some v ∧ decodeValue read v = .ok a := by
  rw [required_eq_ok_iff, h name hname]
  simp only [Option.map_eq_some_iff]
  constructor
  · rintro ⟨_, ⟨v, hv, rfl⟩, hread⟩
    exact ⟨v, hv, hread⟩
  · rintro ⟨v, hv, hread⟩
    exact ⟨_, ⟨v, hv, rfl⟩, hread⟩

theorem Shows.required_text_iff {s : String} :
    required parts name readTextValue = .ok s ↔ j.field? name = some (.string s) := by
  simp [h.required_iff hname, decodeValue_text_iff]

theorem Shows.required_list_iff {read : Draft → Decoded α} {as : List α} :
    required parts name (readList read) = .ok as ↔ ∃ items, j.field? name = some (.array items) ∧
      List.Forall₂ (fun v a => decodeValue read v = .ok a) items as := by
  rw [h.required_iff hname]
  simp only [decodeValue_list_iff]
  constructor
  · rintro ⟨_, hv, items, rfl, hitems⟩
    exact ⟨items, hv, hitems⟩
  · rintro ⟨items, hv, hitems⟩
    exact ⟨_, hv, items, rfl, hitems⟩

theorem Shows.required_texts_iff {ss : List String} :
    required parts name (readList readTextValue) = .ok ss ↔
      j.field? name = some (.array (ss.map .string)) := by
  simp [h.required_iff hname, decodeValue_texts_iff]

theorem Shows.withDefault_texts_iff {default ss : List String} :
    withDefault default parts name (readList readTextValue) = .ok ss ↔
      (j.field? name = none ∧ ss = default) ∨ j.field? name = some (.array (ss.map .string)) := by
  rw [← h.required_texts_iff hname, required_eq_ok_iff, withDefault_eq_ok_iff, h name hname,
    Option.map_eq_none_iff]

theorem Shows.withDefault_none_iff {o : Option String} :
    withDefault none parts name (readOptional readTextValue) = .ok o ↔
      OptionalString (j.field? name) o := by
  rw [withDefault_none_eq_ok_iff, h name hname, optionalText_ofValue_iff]

end Shown

end PaperIndex.Json
