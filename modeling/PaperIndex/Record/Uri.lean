import PaperIndex.Error
import PaperIndex.Text.Blank
import PaperIndex.Text.Pieces

/-! # Record URIs

A record is named by `at://authority/collection/rkey`, with three parts that are not empty and hold
no slash. `parse_eq_ok_iff` says that a text is accepted exactly when it is such a name. -/

namespace PaperIndex

/-- The parts of a record URI. -/
structure RecordUri where
  authority : String
  collection : String
  rkey : String
deriving DecidableEq, Repr

namespace RecordUri

/-- The URI with the given parts. -/
def render (u : RecordUri) : String :=
  "at://" ++ u.authority ++ "/" ++ u.collection ++ "/" ++ u.rkey

/-- The parts of a URI. -/
def parse (uri : String) : Except InputFault RecordUri :=
  match Text.after? "at://" uri with
  | none => .error (.notRecordUri uri)
  | some rest =>
    match Text.pieces '/' rest.toList with
    | [a, c, r] =>
      if a = [] ∨ c = [] ∨ r = [] then .error (.recordUriShape uri)
      else .ok ⟨String.ofList a, String.ofList c, String.ofList r⟩
    | _ => .error (.recordUriShape uri)

/-- Every part has characters, none of them a slash. -/
structure Valid (u : RecordUri) : Prop where
  authority : u.authority ≠ "" ∧ '/' ∉ u.authority.toList
  collection : u.collection ≠ "" ∧ '/' ∉ u.collection.toList
  rkey : u.rkey ≠ "" ∧ '/' ∉ u.rkey.toList

/-! ### What is accepted -/

theorem toList_ne_nil_iff {s : String} : s.toList ≠ [] ↔ s ≠ "" := by
  rw [ne_eq, ne_eq, ← String.toList_inj, String.toList_empty]

/-- The written form of valid parts is read back. -/
theorem parse_render {u : RecordUri} (h : u.Valid) : parse u.render = .ok u := by
  have hrest : Text.after? "at://" u.render =
      some (u.authority ++ "/" ++ u.collection ++ "/" ++ u.rkey) :=
    Text.after?_eq_some_iff.2 (by simp [render, String.append_assoc])
  have hpieces : Text.pieces '/' (u.authority ++ "/" ++ u.collection ++ "/" ++ u.rkey).toList =
      [u.authority.toList, u.collection.toList, u.rkey.toList] := by
    have : (u.authority ++ "/" ++ u.collection ++ "/" ++ u.rkey).toList =
        u.authority.toList ++ '/' :: (u.collection.toList ++ '/' :: u.rkey.toList) := by simp
    rw [this, Text.pieces_append_cons h.authority.2, Text.pieces_append_cons h.collection.2,
      Text.pieces_of_not_mem h.rkey.2]
  rw [parse, hrest]
  simp only [hpieces]
  rw [if_neg]
  · simp
  · simp only [not_or]
    exact ⟨toList_ne_nil_iff.2 h.authority.1, toList_ne_nil_iff.2 h.collection.1,
      toList_ne_nil_iff.2 h.rkey.1⟩

/-- What is read is valid, and its written form is the text. -/
theorem eq_render_of_parse {uri : String} {u : RecordUri} (h : parse uri = .ok u) :
    uri = u.render ∧ u.Valid := by
  unfold parse at h
  split at h
  · simp at h
  · next rest hrest =>
    split at h
    · next a c r hp =>
      split at h
      · simp at h
      · next hne =>
        simp only [not_or] at hne
        cases h
        have hmem := fun p (hp' : p ∈ Text.pieces '/' rest.toList) =>
          Text.not_mem_of_mem_pieces hp'
        rw [hp] at hmem
        have hjoin := Text.pieces_join '/' rest.toList
        rw [hp] at hjoin
        refine ⟨?_, ⟨?_, ?_⟩, ⟨?_, ?_⟩, ⟨?_, ?_⟩⟩
        · rw [Text.after?_eq_some_iff.1 hrest, ← String.toList_inj]
          simp only [String.toList_append, render]
          rw [← hjoin]
          simp [List.intercalate]
        · rw [← toList_ne_nil_iff]; simpa using hne.1
        · simpa using hmem a (by simp)
        · rw [← toList_ne_nil_iff]; simpa using hne.2.1
        · simpa using hmem c (by simp)
        · rw [← toList_ne_nil_iff]; simpa using hne.2.2
        · simpa using hmem r (by simp)
    · simp at h

/-- **A text is accepted** exactly when it is the written form of valid parts. -/
theorem parse_eq_ok_iff {uri : String} {u : RecordUri} :
    parse uri = .ok u ↔ uri = u.render ∧ u.Valid :=
  ⟨eq_render_of_parse, fun ⟨h, hv⟩ => h ▸ parse_render hv⟩

theorem exists_toList_of_parse {uri : String} {u : RecordUri} (h : parse uri = .ok u) :
    ∃ cs, uri.toList = 'a' :: cs := by
  rw [(eq_render_of_parse h).1]
  unfold render
  simp only [String.toList_append, String.append_assoc]
  exact ⟨_, rfl⟩

theorem not_blank_of_parse {uri : String} {u : RecordUri} (h : parse uri = .ok u) :
    Text.isBlankText uri = false := by
  obtain ⟨cs, hcs⟩ := exists_toList_of_parse h
  rw [Text.isBlankText, hcs, List.all_cons]
  rfl

end RecordUri

end PaperIndex
