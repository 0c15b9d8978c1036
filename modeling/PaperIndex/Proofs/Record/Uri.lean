import PaperIndex.Record.Uri

/-! # Reading and writing record URIs

A record URI is `at://` and three components joined by single slashes, where a component has at
least one character and no slash (`IsComponent`). Reading accepts these texts and no others, and is
the inverse of writing (`parse_inverse_render`): what has been read is written as the same text, and
what has been written is read as the same components.

A text that is rejected is named by the fault (`fault_of_parse`): it does not start with `at://`, or
what follows does not split into three components. -/

namespace PaperIndex.RecordUri

/-- **A component of a record URI**: some characters, none of them a slash. -/
def IsComponent (s : String) : Prop := s ≠ "" ∧ '/' ∉ s.toList

instance (s : String) : Decidable (IsComponent s) := inferInstanceAs (Decidable (_ ∧ _))

theorem valid_iff {u : RecordUri} :
    u.Valid ↔ IsComponent u.authority ∧ IsComponent u.collection ∧ IsComponent u.rkey :=
  ⟨fun ⟨ha, hc, hr⟩ => ⟨ha, hc, hr⟩, fun ⟨ha, hc, hr⟩ => ⟨ha, hc, hr⟩⟩

/-- The written form has the components in order, with single slashes between them. -/
theorem render_eq (u : RecordUri) :
    u.render = "at://" ++ "/".intercalate [u.authority, u.collection, u.rkey] := by
  rw [← String.toList_inj]
  simp [render]

/-! ### What is accepted -/

theorem isOk_parse_iff (s : String) :
    (∃ u, parse s = .ok u) ↔ ∃ a c r, IsComponent a ∧ IsComponent c ∧ IsComponent r ∧
      s = "at://" ++ "/".intercalate [a, c, r] := by
  constructor
  · rintro ⟨u, hu⟩
    obtain ⟨rfl, hv⟩ := eq_render_of_parse hu
    obtain ⟨ha, hc, hr⟩ := valid_iff.1 hv
    exact ⟨u.authority, u.collection, u.rkey, ha, hc, hr, render_eq u⟩
  · rintro ⟨a, c, r, ha, hc, hr, rfl⟩
    have hv : Valid ⟨a, c, r⟩ := valid_iff.2 ⟨ha, hc, hr⟩
    exact ⟨⟨a, c, r⟩, render_eq ⟨a, c, r⟩ ▸ parse_render hv⟩

/-! ### What is rejected -/

/-- The fault of a text that is rejected. -/
theorem fault_of_parse {s : String} {fault : InputFault} (h : parse s = .error fault) :
    fault = if Text.hasLead "at://" s then .recordUriShape s else .notRecordUri s := by
  unfold parse at h
  cases hrest : Text.after? "at://" s with
  | none =>
    rw [hrest] at h
    rw [Text.after?_eq_none_iff.1 hrest]
    exact (Except.error.inj h).symm
  | some rest =>
    have hlead : Text.hasLead "at://" s = true :=
      Text.hasLead_iff.2 ⟨rest, Text.after?_eq_some_iff.1 hrest⟩
    rw [hrest] at h
    rw [hlead, if_pos rfl]
    -- All that is left to go wrong are the pieces of the rest, and any of it is the same fault.
    simp only [] at h
    split at h
    · split at h
      · exact (Except.error.inj h).symm
      · cases h
    · exact (Except.error.inj h).symm

/-! ### Reading and writing -/

/-- **Reading is the inverse of writing.** A text is accepted exactly if it is `at://` and three
components joined by single slashes; then the components are written as this text. Any three
components are read back from their written form. The fault of a text that is rejected says whether
its start or the rest is wrong. -/
theorem parse_inverse_render :
    (∀ s, (∃ u, parse s = .ok u) ↔ ∃ a c r, IsComponent a ∧ IsComponent c ∧ IsComponent r ∧
      s = "at://" ++ "/".intercalate [a, c, r]) ∧
    (∀ s u, parse s = .ok u → u.render = s) ∧
    (∀ a c r, IsComponent a → IsComponent c → IsComponent r →
      parse (render ⟨a, c, r⟩) = .ok ⟨a, c, r⟩) ∧
    (∀ s fault, parse s = .error fault →
      fault = if Text.hasLead "at://" s then .recordUriShape s else .notRecordUri s) := by
  refine ⟨isOk_parse_iff, fun s u hu => ?_, fun a c r ha hc hr => ?_, fun s fault h => ?_⟩
  · exact (eq_render_of_parse hu).1.symm
  · exact parse_render (valid_iff.2 ⟨ha, hc, hr⟩)
  · exact fault_of_parse h

/-- Components that look like a lead and like blanks, and a text with a slash too many. -/
theorem parse_inverse_render_lead_again :
    let u : RecordUri := ⟨"at:", "é", " "⟩
    let fault := InputFault.recordUriShape "at://at:/é/ /"
    IsComponent u.authority ∧ IsComponent u.collection ∧ IsComponent u.rkey ∧
      parse u.render = .ok u ∧ u.render = "at://at:/é/ " ∧
      parse "at://at:/é/ /" = .error fault ∧
      fault = if Text.hasLead "at://" "at://at:/é/ /" then .recordUriShape "at://at:/é/ /"
        else .notRecordUri "at://at:/é/ /" := by
  intro u fault
  have ha : IsComponent u.authority := by decide
  have hc : IsComponent u.collection := by decide
  have hr : IsComponent u.rkey := by decide
  have hwritten : parse u.render = .ok u := parse_inverse_render.2.2.1 _ _ _ ha hc hr
  have hread : parse "at://at:/é/ " = .ok u := rfl
  have hfault : parse "at://at:/é/ /" = .error fault := rfl
  exact ⟨ha, hc, hr, hwritten, parse_inverse_render.2.1 _ _ hread, hfault,
    parse_inverse_render.2.2.2 _ _ hfault⟩

end PaperIndex.RecordUri
