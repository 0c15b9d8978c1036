import Mathlib.Data.List.DropRight
import PaperIndex.Text.Blank

/-! # What trimming leaves

Dropping characters from the end of a text leaves the one beginning of it after which only such
characters come and which does not end in one itself (`dropEndWhile_eq_iff`). So a trimmed text has
no blanks at its ends (`startsWith_trim`, `endsWith_trim`), and a text that has none is left as it
is (`trim_eq_self`). -/

namespace PaperIndex.Text

variable {p : Char → Bool}

/-- Whether a text starts with a character that passes a test. -/
def startsWith (p : Char → Bool) (s : String) : Bool := s.toList.head?.any p

/-- Whether a text ends with a character that passes a test. -/
def endsWith (p : Char → Bool) (s : String) : Bool := s.toList.getLast?.any p

/-- A test for a slash. -/
def isSlash (c : Char) : Bool := c == '/'

theorem isBlank_slash : isBlank '/' = false := by decide

/-! ### The end of a list of characters -/

/-- Mathlib's function of the same effect. -/
theorem dropEndWhile_eq_rdropWhile (cs : List Char) : dropEndWhile p cs = cs.rdropWhile p := rfl

theorem any_getLast?_dropEndWhile (cs : List Char) :
    (dropEndWhile p cs).getLast?.any p = false := by
  rw [dropEndWhile_eq_rdropWhile]
  by_cases hnil : cs.rdropWhile p = []
  · rw [hnil]
    rfl
  · rw [List.getLast?_eq_some_getLast hnil, Option.any_some]
    exact eq_false_of_ne_true (List.rdropWhile_last_not p cs hnil)

theorem dropEndWhile_append {keep cut : List Char} (hkeep : keep.getLast?.any p = false)
    (hcut : ∀ c ∈ cut, p c = true) : dropEndWhile p (keep ++ cut) = keep := by
  induction cut using List.reverseRecOn with
  | nil =>
    rw [List.append_nil, dropEndWhile_eq_rdropWhile, List.rdropWhile_eq_self_iff]
    intro hne hlast
    rw [List.getLast?_eq_some_getLast hne, Option.any_some, hlast] at hkeep
    cases hkeep
  | append_singleton cut c ih =>
    have hc : p c = true := hcut c (by simp)
    rw [← List.append_assoc, dropEndWhile_eq_rdropWhile, List.rdropWhile_concat_pos p _ c hc]
    exact ih fun d hd => hcut d (List.mem_append_left _ hd)

/-- **What is left** of a list from whose end characters are dropped. -/
theorem dropEndWhile_eq_iff {cs keep : List Char} :
    dropEndWhile p cs = keep ↔
      keep.getLast?.any p = false ∧ ∃ cut, cs = keep ++ cut ∧ ∀ c ∈ cut, p c = true := by
  constructor
  · rintro rfl
    exact ⟨any_getLast?_dropEndWhile cs, cs.rtakeWhile p,
      List.rdropWhile_append_rtakeWhile.symm, fun _ => List.mem_rtakeWhile_imp⟩
  · rintro ⟨hkeep, cut, rfl, hcut⟩
    exact dropEndWhile_append hkeep hcut

/-- Nothing is dropped beyond a character that does not pass the test. -/
theorem dropEndWhile_append_left {front : List Char} (hfront : front.getLast?.any p = false)
    (back : List Char) :
    dropEndWhile p (front ++ back) = front ++ dropEndWhile p back := by
  obtain ⟨hlast, cut, hback, hcut⟩ := dropEndWhile_eq_iff.1 (rfl : dropEndWhile p back = _)
  refine dropEndWhile_eq_iff.2 ⟨?_, cut, by rw [List.append_assoc, ← hback], hcut⟩
  rcases (dropEndWhile p back).eq_nil_or_concat with hnil | ⟨cs, c, hcs⟩
  · rw [hnil, List.append_nil]
    exact hfront
  · rw [hcs] at hlast ⊢
    simpa using hlast

/-! ### Texts -/

theorem toList_trimEndSlashes (s : String) :
    (trimEndSlashes s).toList = dropEndWhile isSlash s.toList := by
  rw [trimEndSlashes, String.toList_ofList]
  rfl

theorem endsWith_trimEndSlashes (s : String) : endsWith isSlash (trimEndSlashes s) = false := by
  rw [endsWith, toList_trimEndSlashes]
  exact any_getLast?_dropEndWhile s.toList

theorem trimEndSlashes_eq_self {s : String} (h : endsWith isSlash s = false) :
    trimEndSlashes s = s := by
  rw [← String.toList_inj, toList_trimEndSlashes]
  exact dropEndWhile_eq_iff.2 ⟨h, [], (List.append_nil _).symm, by simp⟩

theorem trim_toList (s : String) :
    (trim s).toList = dropEndWhile isBlank (s.toList.dropWhile isBlank) := String.toList_ofList

theorem endsWith_trim (s : String) : endsWith isBlank (trim s) = false := by
  rw [endsWith, trim_toList]
  exact any_getLast?_dropEndWhile _

theorem startsWith_trim (s : String) : startsWith isBlank (trim s) = false := by
  rw [startsWith, trim_toList]
  obtain ⟨hlast, cut, hcs, hcut⟩ := dropEndWhile_eq_iff.1
    (rfl : dropEndWhile isBlank (s.toList.dropWhile isBlank) = _)
  -- What is left starts like the text without its leading blanks.
  generalize dropEndWhile isBlank (s.toList.dropWhile isBlank) = keep at hcs ⊢
  cases keep with
  | nil => rfl
  | cons c keep =>
    have hhead := List.head?_dropWhile_not isBlank s.toList
    rw [hcs] at hhead
    simpa using hhead

/-- **A text is blank** exactly if trimming leaves nothing of it. -/
theorem isBlankText_iff_trim (s : String) : isBlankText s = true ↔ trim s = "" := by
  rw [← String.toList_inj, trim_toList, String.toList_empty, dropEndWhile_eq_rdropWhile,
    List.rdropWhile_eq_nil_iff, ← List.dropWhile_eq_nil_iff, List.dropWhile_idempotent,
    List.dropWhile_eq_nil_iff, isBlankText, List.all_eq_true]

/-- Trimming cuts at the end only what starts with no blank. -/
theorem toList_trim {s : String} (h : startsWith isBlank s = false) :
    (trim s).toList = dropEndWhile isBlank s.toList := by
  rw [trim_toList]
  congr 1
  unfold startsWith at h
  cases hs : s.toList with
  | nil => rfl
  | cons c cs =>
    rw [hs] at h
    exact List.dropWhile_cons_of_neg (by simpa using h)

theorem trim_eq_self {s : String} (hstart : startsWith isBlank s = false)
    (hend : endsWith isBlank s = false) : trim s = s := by
  rw [← String.toList_inj, toList_trim hstart]
  exact dropEndWhile_eq_iff.2 ⟨hend, [], (List.append_nil _).symm, by simp⟩

end PaperIndex.Text
