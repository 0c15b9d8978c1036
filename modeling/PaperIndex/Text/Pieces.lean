/-! # Leads, ends and pieces of a text

What follows a given lead, whether a text has a given end, and the pieces between the occurrences of
a separator. `after?_eq_some_iff` and `pieces_join` tie them to concatenation. -/

namespace PaperIndex.Text

/-- Whether a text starts with `lead`. -/
def hasLead (lead s : String) : Bool := lead.toList.isPrefixOf s.toList

/-- What follows `lead` in a text that starts with it. -/
def after? (lead s : String) : Option String :=
  if hasLead lead s then some (String.ofList (s.toList.drop lead.toList.length)) else none

/-- Whether a text has the given end. -/
def hasEnd (ending s : String) : Bool := ending.toList.isSuffixOf s.toList

/-- The pieces between the occurrences of a separator, one more than there are occurrences. -/
def pieces (sep : Char) : List Char → List (List Char)
  | [] => [[]]
  | c :: cs =>
    if c = sep then [] :: pieces sep cs
    else match pieces sep cs with
      | [] => [[c]]
      | p :: ps => (c :: p) :: ps

/-- Every occurrence of the pattern, from the left and without overlaps, becomes the replacement.
The pattern must not be empty. -/
def replaceAll (pattern replacement : List Char) : List Char → List Char
  | [] => []
  | c :: cs =>
    match pattern.isPrefixOf? (c :: cs) with
    | some rest =>
      if rest.length ≤ cs.length then replacement ++ replaceAll pattern replacement rest
      else c :: cs
    | none => c :: replaceAll pattern replacement cs
  termination_by cs => cs.length
  decreasing_by all_goals rw [List.length_cons]; omega

/-- The text after as many spaces as bring it to the width. -/
def padLeft (width : Nat) (s : String) : String :=
  String.ofList (List.replicate (width - s.length) ' ') ++ s

/-- The text followed by as many spaces as bring it to the width. -/
def padRight (width : Nat) (s : String) : String :=
  s ++ String.ofList (List.replicate (width - s.length) ' ')

/-! ### Concatenation -/

theorem hasLead_iff {lead s : String} : hasLead lead s = true ↔ ∃ rest, s = lead ++ rest := by
  rw [hasLead, List.isPrefixOf_iff_prefix]
  constructor
  · rintro ⟨t, h⟩
    exact ⟨String.ofList t, by rw [← String.toList_inj, ← h]; simp⟩
  · rintro ⟨rest, rfl⟩
    exact ⟨rest.toList, by simp⟩

theorem after?_append (lead rest : String) : after? lead (lead ++ rest) = some rest := by
  rw [after?, if_pos (hasLead_iff.2 ⟨rest, rfl⟩), String.toList_append, List.drop_left,
    String.ofList_toList]

/-- **What follows a lead** is what has to be appended to it. -/
theorem after?_eq_some_iff {lead s rest : String} :
    after? lead s = some rest ↔ s = lead ++ rest := by
  constructor
  · intro h
    obtain ⟨rest', rfl⟩ := hasLead_iff.1 (Option.ite_none_right_eq_some.1 h).1
    rw [after?_append] at h
    rw [Option.some.inj h]
  · rintro rfl
    exact after?_append lead rest

theorem after?_eq_none_iff {lead s : String} : after? lead s = none ↔ hasLead lead s = false := by
  rw [Option.eq_none_iff_forall_ne_some, ← Bool.not_eq_true, hasLead_iff, not_exists]
  exact forall_congr' fun rest => not_congr after?_eq_some_iff

/-- Of two leads of one text, one starts with the other. -/
theorem append_eq_append_iff {s t u v : String} :
    s ++ u = t ++ v ↔ (∃ c, t = s ++ c ∧ u = c ++ v) ∨ ∃ c, s = t ++ c ∧ v = c ++ u := by
  constructor
  · intro h
    have hlist : s.toList ++ u.toList = t.toList ++ v.toList := by
      rw [← String.toList_append, h, String.toList_append]
    rcases List.append_eq_append_iff.1 hlist with ⟨c, ht, hu⟩ | ⟨c, hs, hv⟩
    · refine .inl ⟨String.ofList c, ?_, ?_⟩
      · rw [← String.toList_inj, ht, String.toList_append, String.toList_ofList]
      · rw [← String.toList_inj, hu, String.toList_append, String.toList_ofList]
    · refine .inr ⟨String.ofList c, ?_, ?_⟩
      · rw [← String.toList_inj, hs, String.toList_append, String.toList_ofList]
      · rw [← String.toList_inj, hv, String.toList_append, String.toList_ofList]
  · rintro (⟨c, rfl, rfl⟩ | ⟨c, rfl, rfl⟩)
    · rw [String.append_assoc]
    · rw [String.append_assoc]

@[simp] theorem pieces_nil (sep : Char) : pieces sep [] = [[]] := rfl

theorem pieces_ne_nil (sep : Char) (cs : List Char) : pieces sep cs ≠ [] := by
  cases cs with
  | nil => simp
  | cons c cs =>
    rw [pieces]
    split
    · simp
    · split <;> simp

/-- A text without the separator is its own only piece. -/
theorem pieces_of_not_mem {sep : Char} {cs : List Char} (h : sep ∉ cs) : pieces sep cs = [cs] := by
  induction cs with
  | nil => rfl
  | cons c cs ih =>
    simp only [List.mem_cons, not_or] at h
    rw [pieces, if_neg (Ne.symm h.1), ih h.2]

/-- The separator ends the first piece. -/
theorem pieces_append_cons {sep : Char} {cs : List Char} (h : sep ∉ cs) (rest : List Char) :
    pieces sep (cs ++ sep :: rest) = cs :: pieces sep rest := by
  induction cs with
  | nil => simp [pieces]
  | cons c cs ih =>
    simp only [List.mem_cons, not_or] at h
    rw [List.cons_append, pieces, if_neg (Ne.symm h.1), ih h.2]

/-- No piece holds the separator. -/
theorem not_mem_of_mem_pieces {sep : Char} {cs p : List Char} (h : p ∈ pieces sep cs) :
    sep ∉ p := by
  induction cs generalizing p with
  | nil => simp_all
  | cons c cs ih =>
    rw [pieces] at h
    split at h
    · rcases List.mem_cons.1 h with rfl | h
      · simp
      · exact ih h
    · next hc =>
      split at h
      · next hq => exact absurd hq (pieces_ne_nil sep cs)
      · next q qs hq =>
        rw [hq] at ih
        rcases List.mem_cons.1 h with rfl | h
        · simp only [List.mem_cons, not_or]
          exact ⟨Ne.symm hc, ih (List.mem_cons_self ..)⟩
        · exact ih (List.mem_cons_of_mem _ h)

/-- The pieces with the separator between them are the text. -/
theorem pieces_join (sep : Char) (cs : List Char) : [sep].intercalate (pieces sep cs) = cs := by
  induction cs with
  | nil => rfl
  | cons c cs ih =>
    rw [pieces]
    split
    · next h =>
      subst h
      cases hp : pieces c cs with
      | nil => exact absurd hp (pieces_ne_nil c cs)
      | cons p ps => rw [← ih, hp]; simp [List.intercalate]
    · split
      · next hp => exact absurd hp (pieces_ne_nil sep cs)
      · next p ps hp =>
        rw [hp] at ih
        rw [← ih]
        cases ps <;> simp [List.intercalate]

end PaperIndex.Text
