import PaperIndex.Proofs.Json.Tokens

/-! # What is written can be read

The compact text of a value denotes the value, field by field and in the order of the text
(`ofText?_compact`). This holds of every value whose numbers are integers of 64 bits and that is no
deeper than a reader goes (`isPlain`). The induction is on the value, for any fuel that is four
times as long as its text: between two characters a reader takes at most three steps. -/

namespace PaperIndex.Json

/-! ### Values -/

mutual

/-- Whether a value inside `opened` containers has only integers of 64 bits for its numbers and no
container that is too deep for a reader. -/
def isPlain (opened : Nat) : Json → Bool
  | .number n => n.isPlain
  | .array items => decide (opened < maxOpen) && arePlainItems (opened + 1) items
  | .object fields => decide (opened < maxOpen) && arePlainFields (opened + 1) fields
  | _ => true

/-- Whether all items are plain. -/
def arePlainItems (opened : Nat) : List Json → Bool
  | [] => true
  | j :: js => isPlain opened j && arePlainItems opened js

/-- Whether the values of all fields are plain. -/
def arePlainFields (opened : Nat) : List (String × Json) → Bool
  | [] => true
  | (_, j) :: fs => isPlain opened j && arePlainFields opened fs

end

variable {opened fuel : Nat} {rest : List Char}

theorem atMark_itemsChars (js : List Json) (rest : List Char) : AtMark (itemsChars js ++ rest) := by
  cases js with
  | nil => rintro c ⟨⟩; exact .inr (.inl rfl)
  | cons j js => rintro c ⟨⟩; exact .inl rfl

theorem atMark_fieldsChars (fs : List (String × Json)) (rest : List Char) :
    AtMark (fieldsChars fs ++ rest) := by
  cases fs with
  | nil => rintro c ⟨⟩; exact .inr (.inr rfl)
  | cons f fs => rintro c ⟨⟩; exact .inl rfl

theorem skipSpaces_cons {c : Char} (h : isSpace c = false) (cs : List Char) :
    skipSpaces (c :: cs) = c :: cs := List.dropWhile_cons_of_neg (by simp [h])

theorem isSpace_of_isDigit {c : Char} (h : isDigit c = true) : isSpace c = false := by
  unfold isSpace
  by_contra hspace
  simp only [Bool.not_eq_false, Bool.or_eq_true, decide_eq_true_eq] at hspace
  rcases hspace with ((rfl | rfl) | rfl) | rfl <;> cases h

/-- How the text of a value starts: not with a blank, and not as an array ends. -/
theorem exists_chars_eq_cons (j : Json) (h : isPlain opened j = true) :
    ∃ c cs, chars j = c :: cs ∧ isSpace c = false ∧ c ≠ ']' := by
  cases j with
  | null => exact ⟨_, _, rfl, rfl, by decide⟩
  | bool b => cases b <;> exact ⟨_, _, rfl, rfl, by decide⟩
  | number n =>
    cases n with
    | integer n =>
      obtain ⟨m, ⟨hchars, -⟩ | ⟨hchars, -⟩⟩ := readNumber_integer h atMark_nil
      · obtain ⟨c, cs, hcons, hdigit⟩ := exists_toDigits_eq_cons m
        refine ⟨c, cs, hchars.trans hcons, isSpace_of_isDigit hdigit, ?_⟩
        rintro rfl
        cases hdigit
      · exact ⟨_, _, hchars, rfl, by decide⟩
    | double bits => cases h
  | string s => exact ⟨_, _, rfl, rfl, by decide⟩
  | array items => cases items <;> exact ⟨_, _, rfl, rfl, by decide⟩
  | object fields =>
    cases fields with
    | nil => exact ⟨_, _, rfl, rfl, by decide⟩
    | cons f fs => exact ⟨_, _, rfl, rfl, by decide⟩

/-! ### One step of a reader -/

theorem readValue_digit {c : Char} (h : isDigit c = true) (cs : List Char) :
    readValue opened (fuel + 1) (c :: cs) = (readNumber false (c :: cs)).draft .number := by
  have hne : ∀ d, isDigit d = false → c ≠ d := by
    rintro d hd rfl
    rw [h] at hd
    cases hd
  rw [readValue, skipSpaces_cons (isSpace_of_isDigit h)]
  simp only [hne '"' rfl, hne '[' rfl, hne '\x7b' rfl, hne 'n' rfl, hne 't' rfl, hne 'f' rfl,
    hne '-' rfl, h, if_true, if_false]

theorem readItems_first {c : Char} (hspace : isSpace c = false) (hend : c ≠ ']') (cs : List Char) :
    readItems opened (fuel + 1) true (c :: cs) = readItem opened fuel (c :: cs) := by
  rw [readItems, skipSpaces_cons hspace]
  simp only [if_neg hend, if_true]

theorem readItems_next {c : Char} (hspace : isSpace c = false) (hend : c ≠ ']') (cs : List Char) :
    readItems opened (fuel + 1) false (',' :: c :: cs) = readItem opened fuel (c :: cs) := by
  rw [readItems, skipSpaces_cons rfl]
  simp only [skipSpaces_cons hspace]
  rw [if_neg (by decide), if_neg (by decide), if_true]
  split
  · next heq =>
    cases heq
    exact absurd rfl hend
  · rfl

theorem readItems_end (first : Bool) (rest : List Char) :
    readItems opened (fuel + 1) first (']' :: rest) = ([], none, some rest) := by
  rw [readItems, skipSpaces_cons rfl]
  rfl

/-- **An item** and those after it. -/
theorem readItem_eq {cs : List Char} {d : Draft} {ds : List Draft} {stop : Option Problem}
    {rest' : Option (List Char)} (hitem : readValue opened fuel cs = (d, some rest))
    (hitems : readItems opened fuel false rest = (ds, stop, rest')) :
    readItem opened (fuel + 1) cs = (d :: ds, stop, rest') := by
  rw [readItem, hitem]
  simp only [hitems]

theorem readFields_first (k : String) (cs : List Char) :
    readFields opened (fuel + 1) true (stringChars k ++ cs) =
      readField opened fuel (stringChars k ++ cs) := by
  rw [readFields]
  rfl

theorem readFields_next (k : String) (cs : List Char) :
    readFields opened (fuel + 1) false (',' :: (stringChars k ++ cs)) =
      readField opened fuel (stringChars k ++ cs) := by
  rw [readFields, skipSpaces_cons rfl]
  rfl

theorem readFields_end (first : Bool) (rest : List Char) :
    readFields opened (fuel + 1) first ('\x7d' :: rest) = ([], none, some rest) := by
  rw [readFields, skipSpaces_cons rfl]
  rfl

/-- **A field** and those after it. -/
theorem readField_eq {k : String} {cs : List Char} {d : Draft}
    {fs : List (Option String × Draft)} {stop : Option Problem} {rest' : Option (List Char)}
    (hvalue : readValue opened fuel cs = (d, some rest))
    (hfields : readFields opened fuel false rest = (fs, stop, rest')) :
    readField opened (fuel + 2) (stringChars k ++ ':' :: cs) =
      ((some k, d) :: fs, stop, rest') := by
  have hchars : stringChars k ++ ':' :: cs =
      '"' :: (k.toList.flatMap escapeChar ++ '"' :: ':' :: cs) := by
    simp [stringChars]
  rw [hchars, readField]
  simp only [if_true, readString_escaped]
  rw [readFieldValue]
  simp only [skipSpaces_cons (rfl : isSpace ':' = false), if_true, hvalue, hfields]

theorem readValue_string (s : String) :
    readValue opened (fuel + 1) (stringChars s ++ rest) = (.string s, some rest) := by
  have hchars : stringChars s ++ rest = '"' :: (s.toList.flatMap escapeChar ++ '"' :: rest) := by
    simp [stringChars]
  rw [hchars, readValue, skipSpaces_cons rfl]
  simp only [if_true, readString_escaped]
  rfl

theorem readValue_integer {n : Int} (hn : (Number.integer n).isPlain = true) (h : AtMark rest) :
    readValue opened (fuel + 1) (Number.chars (.integer n) ++ rest) =
      (.number (.integer n), some rest) := by
  obtain ⟨m, ⟨hchars, hread⟩ | ⟨hchars, hread⟩⟩ := readNumber_integer hn h
  · obtain ⟨c, cs, hcons, hdigit⟩ := exists_toDigits_eq_cons m
    rw [hcons] at hread
    rw [hchars, hcons, List.cons_append, readValue_digit hdigit, ← List.cons_append, hread]
    rfl
  · rw [hchars, List.cons_append, readValue, skipSpaces_cons rfl]
    exact congrArg (Token.draft Draft.number) hread

theorem readValue_array {ds : List Draft} {cs : List Char} (hopened : opened < maxOpen)
    (h : readItems (opened + 1) fuel true cs = (ds, none, some rest)) :
    readValue opened (fuel + 1) ('[' :: cs) = (.array ds none, some rest) := by
  rw [readValue, skipSpaces_cons rfl]
  simp only [h]
  exact congrArg (·, some rest) (if_pos hopened)

theorem readValue_object {fs : List (Option String × Draft)} {cs : List Char}
    (hopened : opened < maxOpen)
    (h : readFields (opened + 1) fuel true cs = (fs, none, some rest)) :
    readValue opened (fuel + 1) ('\x7b' :: cs) = (.object fs none, some rest) := by
  rw [readValue, skipSpaces_cons rfl]
  simp only [h]
  exact congrArg (·, some rest) (if_pos hopened)

/-! ### Whole values -/

theorem itemsChars_append (j : Json) (js : List Json) (rest : List Char) :
    itemsChars (j :: js) ++ rest = ',' :: (chars j ++ (itemsChars js ++ rest)) := by
  rw [itemsChars, List.cons_append, List.cons_append, List.append_assoc]

theorem fieldsChars_append (k : String) (j : Json) (fs : List (String × Json)) (rest : List Char) :
    fieldsChars ((k, j) :: fs) ++ rest =
      ',' :: (stringChars k ++ ':' :: (chars j ++ (fieldsChars fs ++ rest))) := by
  simp only [fieldsChars, List.cons_append, List.append_assoc]

mutual

/-- **A value** is read as it was written. -/
theorem readValue_chars : ∀ (j : Json) (opened fuel : Nat) (rest : List Char),
    isPlain opened j = true → AtMark rest → 4 * (chars j).length ≤ fuel →
      readValue opened fuel (chars j ++ rest) = (Draft.ofValue j, some rest)
  | .null, opened, fuel, rest, _, _, hfuel => by
    obtain ⟨fuel, rfl⟩ := Nat.exists_eq_add_of_le' (show 1 ≤ fuel from Nat.one_le_of_lt hfuel)
    rw [readValue]
    rfl
  | .bool b, opened, fuel, rest, _, _, hfuel => by
    cases b <;>
    · obtain ⟨fuel, rfl⟩ := Nat.exists_eq_add_of_le' (show 1 ≤ fuel from Nat.one_le_of_lt hfuel)
      rw [readValue]
      rfl
  | .number (.double bits), _, _, _, hplain, _, _ => nomatch hplain
  | .number (.integer n), opened, fuel, rest, hplain, hrest, hfuel => by
    obtain ⟨c, cs, hchars, -, -⟩ := exists_chars_eq_cons _ hplain
    rw [hchars, List.length_cons] at hfuel
    obtain ⟨fuel, rfl⟩ := Nat.exists_eq_add_of_le' (show 1 ≤ fuel by omega)
    exact readValue_integer hplain hrest
  | .string s, opened, fuel, rest, _, _, hfuel => by
    obtain ⟨fuel, rfl⟩ := Nat.exists_eq_add_of_le' (show 1 ≤ fuel from Nat.one_le_of_lt hfuel)
    exact readValue_string s
  | .array [], opened, fuel, rest, hplain, _, hfuel => by
    have hfuel' : 8 ≤ fuel := hfuel
    obtain ⟨fuel, rfl⟩ := Nat.exists_eq_add_of_le' (show 2 ≤ fuel by omega)
    have hopened := of_decide_eq_true (Bool.and_eq_true_iff.1 hplain).1
    exact readValue_array hopened (readItems_end true rest)
  | .array (j :: js), opened, fuel, rest, hplain, _, hfuel => by
    obtain ⟨hopened, hitems⟩ := Bool.and_eq_true_iff.1 hplain
    obtain ⟨hj, hjs⟩ := Bool.and_eq_true_iff.1 hitems
    simp only [chars, List.length_cons, List.length_append] at hfuel
    obtain ⟨fuel, rfl⟩ := Nat.exists_eq_add_of_le' (show 3 ≤ fuel by omega)
    -- What follows the first item is a comma or the end, so a number ends there.
    have hvalue := readValue_chars j (opened + 1) fuel (itemsChars js ++ rest) hj
      (atMark_itemsChars js rest) (by omega)
    have hitem := readItem_eq hvalue (readItems_itemsChars js (opened + 1) fuel rest hjs (by omega))
    obtain ⟨c, cs, hchars, hspace, hend⟩ := exists_chars_eq_cons j hj
    rw [chars, List.cons_append, List.cons_append, List.append_assoc]
    rw [hchars, List.cons_append] at hitem ⊢
    exact readValue_array (of_decide_eq_true hopened) ((readItems_first hspace hend _).trans hitem)
  | .object [], opened, fuel, rest, hplain, _, hfuel => by
    have hfuel' : 8 ≤ fuel := hfuel
    obtain ⟨fuel, rfl⟩ := Nat.exists_eq_add_of_le' (show 2 ≤ fuel by omega)
    have hopened := of_decide_eq_true (Bool.and_eq_true_iff.1 hplain).1
    exact readValue_object hopened (readFields_end true rest)
  | .object ((k, j) :: fs), opened, fuel, rest, hplain, _, hfuel => by
    obtain ⟨hopened, hfields⟩ := Bool.and_eq_true_iff.1 hplain
    obtain ⟨hj, hfs⟩ := Bool.and_eq_true_iff.1 hfields
    simp only [chars, List.length_cons, List.length_append] at hfuel
    obtain ⟨fuel, rfl⟩ := Nat.exists_eq_add_of_le' (show 4 ≤ fuel by omega)
    have hvalue := readValue_chars j (opened + 1) fuel (fieldsChars fs ++ rest) hj
      (atMark_fieldsChars fs rest) (by omega)
    have hfield := readField_eq (k := k) hvalue
      (readFields_fieldsChars fs (opened + 1) fuel rest hfs (by omega))
    simp only [chars, List.cons_append, List.append_assoc]
    exact readValue_object (of_decide_eq_true hopened) ((readFields_first k _).trans hfield)

/-- **The further items** are read to the end of the array. -/
theorem readItems_itemsChars : ∀ (js : List Json) (opened fuel : Nat) (rest : List Char),
    arePlainItems opened js = true → 4 * (itemsChars js).length ≤ fuel →
      readItems opened fuel false (itemsChars js ++ rest) = (draftsOf js, none, some rest)
  | [], opened, fuel, rest, _, hfuel => by
    obtain ⟨fuel, rfl⟩ := Nat.exists_eq_add_of_le' (show 1 ≤ fuel from Nat.one_le_of_lt hfuel)
    exact readItems_end false rest
  | j :: js, opened, fuel, rest, hplain, hfuel => by
    obtain ⟨hj, hjs⟩ := Bool.and_eq_true_iff.1 hplain
    simp only [itemsChars, List.length_cons, List.length_append] at hfuel
    obtain ⟨fuel, rfl⟩ := Nat.exists_eq_add_of_le' (show 2 ≤ fuel by omega)
    have hvalue := readValue_chars j opened fuel (itemsChars js ++ rest) hj
      (atMark_itemsChars js rest) (by omega)
    have hitems := readItems_itemsChars js opened fuel rest hjs (by omega)
    have hitem := readItem_eq hvalue hitems
    obtain ⟨c, cs, hchars, hspace, hend⟩ := exists_chars_eq_cons j hj
    rw [itemsChars_append]
    rw [hchars, List.cons_append] at hitem ⊢
    exact (readItems_next hspace hend _).trans hitem

/-- **The further fields** are read to the end of the object. -/
theorem readFields_fieldsChars : ∀ (fs : List (String × Json)) (opened fuel : Nat)
    (rest : List Char), arePlainFields opened fs = true → 4 * (fieldsChars fs).length ≤ fuel →
      readFields opened fuel false (fieldsChars fs ++ rest) = (fieldDraftsOf fs, none, some rest)
  | [], opened, fuel, rest, _, hfuel => by
    obtain ⟨fuel, rfl⟩ := Nat.exists_eq_add_of_le' (show 1 ≤ fuel from Nat.one_le_of_lt hfuel)
    exact readFields_end false rest
  | (k, j) :: fs, opened, fuel, rest, hplain, hfuel => by
    obtain ⟨hj, hfs⟩ := Bool.and_eq_true_iff.1 hplain
    simp only [fieldsChars, List.length_cons, List.length_append] at hfuel
    obtain ⟨fuel, rfl⟩ := Nat.exists_eq_add_of_le' (show 3 ≤ fuel by omega)
    have hvalue := readValue_chars j opened fuel (fieldsChars fs ++ rest) hj
      (atMark_fieldsChars fs rest) (by omega)
    have hfields := readFields_fieldsChars fs opened fuel rest hfs (by omega)
    rw [fieldsChars_append, readFields_next]
    exact readField_eq hvalue hfields

end

mutual

/-- The draft of a value denotes it. -/
theorem value?_ofValue : ∀ j : Json, (Draft.ofValue j).value? = .ok j
  | .null | .bool _ | .number _ | .string _ => rfl
  | .array items => by
    rw [Draft.ofValue, Draft.value?, itemValues?_draftsOf items]
    rfl
  | .object fields => by
    rw [Draft.ofValue, Draft.value?, fieldValues?_fieldDraftsOf fields]
    rfl

theorem itemValues?_draftsOf : ∀ js : List Json, itemValues? (draftsOf js) = .ok js
  | [] => rfl
  | j :: js => by
    rw [draftsOf, itemValues?, value?_ofValue j, itemValues?_draftsOf js]
    rfl

theorem fieldValues?_fieldDraftsOf :
    ∀ fs : List (String × Json), fieldValues? (fieldDraftsOf fs) = .ok fs
  | [] => rfl
  | (k, j) :: fs => by
    rw [fieldDraftsOf, fieldValues?, value?_ofValue j, fieldValues?_fieldDraftsOf fs]
    rfl

end

/-- **The text of a value** denotes the value, and nothing follows it. -/
theorem draftOf_compact {j : Json} (h : isPlain 0 j = true) :
    draftOf j.compact = (Draft.ofValue j, false) := by
  have hread := readValue_chars j 0 (4 * (chars j).length + 4) [] h atMark_nil (by omega)
  rw [List.append_nil] at hread
  unfold draftOf compact
  rw [String.toList_ofList]
  simp only [hread]
  rfl

/-- **Reading inverts writing.** -/
theorem ofText?_compact {j : Json} (h : isPlain 0 j = true) : ofText? j.compact = .ok j := by
  unfold ofText?
  rw [draftOf_compact h]
  simp only [value?_ofValue]
  rfl

end PaperIndex.Json
