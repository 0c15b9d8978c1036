import PaperIndex.Proofs.Json.Fields
import PaperIndex.Proofs.Json.RoundTrip

/-! # Reading what is written

A type of data is written as JSON values and read from texts, where the fields stand as they were
written, and from values, where they stand in the order of their keys.

* `readFieldsOf_object`: an object with declared, different and well-formed fields is read field by
  field, in either order;
* `readList_array`: an array is read item by item;
* `ReadsBack`: what has to be shown of a single item, and what follows for lists from it, as a text
  (`ReadsBack.decodeText_list`) and as a value (`ReadsBack.decodeValue_list`). -/

namespace PaperIndex.Json

/-! ### Numbers -/

theorem readUnsigned_int {bits n : Nat} (h : Word.isUnsigned bits n = true) :
    readUnsigned bits (Draft.ofValue (int n)) = .ok n :=
  (if_pos h).trans (congrArg Except.ok (Int.toNat_natCast n))

/-! ### Objects -/

theorem walkFields_declared {specs : List FieldSpec} {fields seen : List (String × Draft)}
    (hdeclared : ∀ f ∈ fields, ∃ spec, specs.find? (·.name == f.1) = some spec ∧
      spec.check f.2 = .ok ())
    (hnodup : ((fields.reverse ++ seen).map Prod.fst).Nodup) :
    walkFields specs seen (draftFields fields) = .ok (fields.reverse ++ seen) := by
  have hmem : ∀ f ∈ fields, f.1 ∈ specs.map (·.name) := by
    intro f hf
    obtain ⟨spec, hfind, -⟩ := hdeclared f hf
    exact isSome_find?_iff.1 (Option.isSome_of_eq_some hfind)
  have hnamed : named (specs.map (·.name)) fields = fields :=
    List.filter_eq_self.2 fun f hf => decide_eq_true (hmem f hf)
  have hseen : (seen.map Prod.fst).Nodup :=
    hnodup.sublist ((List.sublist_append_right _ _).map _)
  rw [walkFields_eq_ok_iff rfl hseen, hnamed]
  refine ⟨fun f hf hout => absurd (hmem f hf) hout, fun f hf spec hfind => ?_, hnodup, rfl⟩
  obtain ⟨spec', hfind', hcheck⟩ := hdeclared f hf
  rwa [Option.some.inj (hfind.symm.trans hfind')]

/-- **An object** whose fields are declared, different and well-formed is read field by field. -/
theorem readFieldsOf_object {source : Source} {name : String} {specs : List FieldSpec}
    {fields : List (String × Draft)}
    (hdeclared : ∀ f ∈ fields, ∃ spec, specs.find? (·.name == f.1) = some spec ∧
      spec.check f.2 = .ok ())
    (hnodup : (fields.map Prod.fst).Nodup)
    (hrequired : requireFields fields.reverse specs = .ok ()) :
    readFieldsOf source name specs (.object (draftFields fields) none) = .ok fields.reverse := by
  have hkeys : ((fields.reverse ++ []).map Prod.fst).Nodup := by
    rw [List.append_nil, List.map_reverse]
    exact List.nodup_reverse.2 hnodup
  have hwalk := walkFields_declared hdeclared hkeys
  rw [List.append_nil] at hwalk
  unfold readFieldsOf
  simp only [hwalk]
  change (requireFields fields.reverse specs >>= fun _ => pure fields.reverse) = _
  rw [hrequired]
  rfl

/-! ### Arrays -/

section Arrays

variable {α : Type} {read : Draft → Decoded α} {write : α → Json} {as : List α}

/-- **An array** is read item by item. -/
theorem readList_array (h : ∀ a ∈ as, read (Draft.ofValue (write a)) = .ok a) :
    readList read (Draft.ofValue (.array (as.map write))) = .ok as := by
  have hitems : (draftsOf (as.map write)).mapM read = .ok as := by
    induction as with
    | nil => rfl
    | cons a as ih =>
      obtain ⟨ha, has⟩ := List.forall_mem_cons.1 h
      rw [List.map_cons, draftsOf, List.mapM_cons, ha, ih has]
      rfl
  change ((draftsOf (as.map write)).mapM read >>= fun as =>
    liftProblem (atStop none) >>= fun _ => pure as) = _
  rw [hitems]
  rfl

theorem canonical_array : (Json.array (as.map write)).canonical =
    .array (as.map fun a => (write a).canonical) := by
  rw [canonical, canonicalItems_eq_map, List.map_map]
  rfl

/-- An array in canonical form is read item by item. -/
theorem readList_map (h : ∀ a, read (Draft.ofValue (write a).canonical) = .ok a) (as : List α) :
    readList read (Draft.ofValue (Json.array (as.map write)).canonical) = .ok as := by
  rw [canonical_array]
  exact readList_array fun a _ => h a

theorem arePlainItems_map {opened : Nat} (h : ∀ a ∈ as, isPlain opened (write a) = true) :
    arePlainItems opened (as.map write) = true := by
  induction as with
  | nil => rfl
  | cons a as ih =>
    obtain ⟨ha, has⟩ := List.forall_mem_cons.1 h
    exact Bool.and_eq_true_iff.2 ⟨ha, ih has⟩

end Arrays

/-! ### Documents -/

/-- **Data that is read back as it was written**, provided that it fits: its values have no doubles
and are not deep, and both readers invert the writer. -/
structure ReadsBack {α : Type} (fits : α → Prop) (write : α → Json)
    (fromText fromValue : Draft → Decoded α) : Prop where
  plain : ∀ {a}, fits a → isPlain 1 (write a) = true
  text : ∀ {a}, fits a → fromText (Draft.ofValue (write a)) = .ok a
  value : ∀ {a}, fits a → fromValue (Draft.ofValue (write a).canonical) = .ok a

namespace ReadsBack

variable {α : Type} {fits : α → Prop} {write : α → Json} {fromText fromValue : Draft → Decoded α}
  (h : ReadsBack fits write fromText fromValue) {as : List α} (has : ∀ a ∈ as, fits a)
include h has

/-- **The text of a list** is read as the list. -/
theorem decodeText_list :
    decodeText (readList fromText) (Json.array (as.map write)).compact = .ok as := by
  have hplain : isPlain 0 (Json.array (as.map write)) = true :=
    Bool.and_eq_true_iff.2 ⟨rfl, arePlainItems_map fun a ha => h.plain (has a ha)⟩
  have hread : readList fromText (Draft.ofValue (.array (as.map write))) = .ok as :=
    readList_array fun a ha => h.text (has a ha)
  unfold decodeText
  rw [draftOf_compact hplain]
  simp only [hread]
  rfl

/-- **The value of a list** is read as the list. -/
theorem decodeValue_list :
    decodeValue (readList fromValue) (Json.array (as.map write)) = .ok as := by
  unfold decodeValue
  rw [canonical_array]
  exact readList_array fun a ha => h.value (has a ha)

end ReadsBack

end PaperIndex.Json
