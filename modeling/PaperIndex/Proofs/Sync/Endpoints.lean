import PaperIndex.Proofs.Text.Trimming
import PaperIndex.Sync.Endpoint

/-! # Normal forms of endpoints

The normal form of an endpoint is the text without the blanks around it and the slashes at its end,
and it has to be a URL of the web (`normalize_eq_ok_iff`). Blanks are cut before slashes are, so a
blank that stood before the slashes is left at the end (`endsWith_isBlank_iff`). A normal form is
always accepted, and it is its own normal form unless it ends in such a blank
(`normalize_self_iff`). -/

namespace PaperIndex

open Text (isBlank isSlash startsWith endsWith dropEndWhile dropEndWhile_eq_iff)

/-! ### Normal forms -/

namespace Endpoint

/-- **A URL of the web**: a scheme, a host that is not empty and holds neither blanks nor slashes,
and a path that starts with a slash if there is one. -/
def IsWebUrl (s : String) : Prop :=
  ∃ scheme ∈ ["https://", "http://"], ∃ host path : List Char,
    s.toList = scheme.toList ++ (host ++ path) ∧ host ≠ [] ∧
      (∀ c ∈ host, isBlank c = false ∧ isSlash c = false) ∧ path.head?.all isSlash = true

theorem afterScheme?_eq_some_iff {s rest : String} :
    afterScheme? s = some rest ↔ ∃ scheme ∈ ["https://", "http://"], s = scheme ++ rest := by
  unfold afterScheme?
  simp only [Option.or_eq_some_iff, Text.after?_eq_some_iff, List.mem_cons, List.not_mem_nil,
    or_false, exists_eq_or_imp, exists_eq_left]
  refine or_congr_right (and_iff_right_of_imp ?_)
  -- A text with the shorter scheme does not have the longer one.
  rintro rfl
  cases hlonger : Text.after? "https://" ("http://" ++ rest) with
  | none => rfl
  | some r =>
    have hchars := congrArg String.toList (Text.after?_eq_some_iff.1 hlonger)
    simp at hchars

/-- A text is cut into a host and a path at its first slash. -/
theorem host_eq_iff {rest : String} {host path : List Char} (h : rest.toList = host ++ path)
    (hhost : ∀ c ∈ host, isSlash c = false) (hpath : path.head?.all isSlash = true) :
    Endpoint.host rest = host := by
  unfold Endpoint.host
  rw [h, List.takeWhile_append_of_pos fun c hc => by simpa [isSlash, bne] using hhost c hc]
  cases path with
  | nil => simp
  | cons c path => simpa [isSlash] using hpath

theorem isWebUrl_iff {s : String} :
    IsWebUrl s ↔ ∃ rest, afterScheme? s = some rest ∧ Endpoint.host rest ≠ [] ∧
      ∀ c ∈ Endpoint.host rest, isBlank c = false := by
  simp only [afterScheme?_eq_some_iff]
  constructor
  · rintro ⟨scheme, hscheme, host, path, hs, hne, hhost, hpath⟩
    have hrest : Endpoint.host (String.ofList (host ++ path)) = host :=
      host_eq_iff String.toList_ofList (fun c hc => (hhost c hc).2) hpath
    refine ⟨String.ofList (host ++ path), ⟨scheme, hscheme, ?_⟩, ?_⟩
    · rw [← String.toList_inj, hs, String.toList_append, String.toList_ofList]
    · rw [hrest]
      exact ⟨hne, fun c hc => (hhost c hc).1⟩
  · rintro ⟨rest, ⟨scheme, hscheme, rfl⟩, hne, hhost⟩
    refine ⟨scheme, hscheme, Endpoint.host rest, rest.toList.dropWhile (· != '/'), ?_, hne,
      fun c hc => ⟨hhost c hc, ?_⟩, ?_⟩
    · rw [String.toList_append, Endpoint.host, List.takeWhile_append_dropWhile]
    · simpa [isSlash, bne] using List.mem_takeWhile_imp hc
    · have hhead := List.head?_dropWhile_not (· != '/') rest.toList
      cases hpath : rest.toList.dropWhile (· != '/') with
      | nil => rfl
      | cons c path =>
        rw [hpath] at hhead
        simpa [isSlash, bne] using hhead

/-- **What is accepted**, and in which form it is kept. -/
theorem normalize_eq_ok_iff {s n : String} :
    normalize s = .ok n ↔ n = Text.trimEndSlashes (Text.trim s) ∧ IsWebUrl n := by
  rw [isWebUrl_iff]
  unfold normalize
  simp only
  constructor
  · intro h
    split at h
    · cases h
    · next rest hrest =>
      split at h
      · cases h
      · next hhost =>
        obtain rfl := Except.ok.inj h
        simp only [Bool.or_eq_true, List.isEmpty_iff, List.any_eq_true, not_or, not_exists,
          not_and, Bool.not_eq_true] at hhost
        exact ⟨rfl, rest, hrest, hhost.1, hhost.2⟩
  · rintro ⟨rfl, rest, hrest, hne, hhost⟩
    simp only [hrest]
    rw [if_neg]
    simp only [Bool.or_eq_true, List.isEmpty_iff, List.any_eq_true, not_or, not_exists, not_and,
      Bool.not_eq_true]
    exact ⟨hne, hhost⟩

/-- Cutting blanks and slashes from its end leaves a URL of the web. -/
theorem IsWebUrl.dropEnd {s s' : String} (h : IsWebUrl s) {p : Char → Bool}
    (hp : ∀ c, isBlank c = false → isSlash c = false → p c = false)
    (hs' : s'.toList = dropEndWhile p s.toList) : IsWebUrl s' := by
  obtain ⟨scheme, hscheme, host, path, hs, hne, hhost, hpath⟩ := h
  refine ⟨scheme, hscheme, host, dropEndWhile p path, ?_, hne, hhost, ?_⟩
  · have hlast : (scheme.toList ++ host).getLast?.any p = false := by
      obtain ⟨cs, c, rfl⟩ := (List.eq_nil_or_concat host).resolve_left hne
      obtain ⟨hblank, hslash⟩ := hhost c (by simp)
      simpa using hp c hblank hslash
    rw [hs', hs, ← List.append_assoc, Text.dropEndWhile_append_left hlast, List.append_assoc]
  · obtain ⟨-, cut, hcut, -⟩ := dropEndWhile_eq_iff.1 (rfl : dropEndWhile p path = _)
    generalize dropEndWhile p path = keep at hcut ⊢
    cases keep with
    | nil => rfl
    | cons c keep => rwa [hcut] at hpath

theorem IsWebUrl.startsWith {s : String} (h : IsWebUrl s) : startsWith isBlank s = false := by
  obtain ⟨scheme, hscheme, host, path, hs, -⟩ := h
  rw [Text.startsWith, hs]
  simp only [List.mem_cons, List.not_mem_nil, or_false] at hscheme
  rcases hscheme with rfl | rfl <;> simp <;> decide

section Normalized
variable {s n : String} (h : normalize s = .ok n)
include h

theorem endsWith_normalized : endsWith isSlash n = false := by
  rw [(normalize_eq_ok_iff.1 h).1]
  exact Text.endsWith_trimEndSlashes _

/-- **A normal form is accepted** again. -/
theorem normalize_normalized : normalize n = .ok (Text.trimEndSlashes (Text.trim n)) := by
  obtain ⟨-, hurl⟩ := normalize_eq_ok_iff.1 h
  have htrim : IsWebUrl (Text.trim n) :=
    hurl.dropEnd (fun _ hblank _ => hblank) (Text.toList_trim hurl.startsWith)
  exact normalize_eq_ok_iff.2 ⟨rfl, htrim.dropEnd (fun _ _ hslash => hslash)
    (Text.toList_trimEndSlashes _)⟩

/-- **A normal form is its own normal form** unless it ends in a blank. -/
theorem normalize_self_iff : normalize n = .ok n ↔ endsWith isBlank n = false := by
  have hstart := (normalize_eq_ok_iff.1 h).2.startsWith
  rw [normalize_normalized h]
  constructor
  · intro hsame
    have hsame : Text.trimEndSlashes (Text.trim n) = n := Except.ok.inj hsame
    -- Both cuts shorten the text unless they leave it alone.
    obtain ⟨hlast, cut, hcut, -⟩ := dropEndWhile_eq_iff.1 (Text.toList_trim hstart).symm
    obtain ⟨-, cut', hcut', -⟩ :=
      dropEndWhile_eq_iff.1 (Text.toList_trimEndSlashes (Text.trim n)).symm
    rw [hsame] at hcut'
    have hlength := congrArg List.length hcut
    rw [hcut', List.length_append, List.length_append] at hlength
    obtain rfl : cut = [] := List.length_eq_zero_iff.1 (by omega)
    rw [endsWith, hcut, List.append_nil]
    exact hlast
  · intro hend
    rw [Text.trim_eq_self hstart hend, Text.trimEndSlashes_eq_self (endsWith_normalized h)]

end Normalized

/-- A text that has, apart from the blanks around it, a blank before the slashes at its end. -/
def BlankBeforeSlashes (s : String) : Prop :=
  ∃ front blank slashes, (Text.trim s).toList = front ++ blank :: slashes ∧ isBlank blank = true ∧
    slashes ≠ [] ∧ ∀ c ∈ slashes, isSlash c = true

/-- Just such a text is left with a blank at its end. -/
theorem endsWith_isBlank_iff (s : String) :
    endsWith isBlank (Text.trimEndSlashes (Text.trim s)) = true ↔ BlankBeforeSlashes s := by
  have hdrop := Text.toList_trimEndSlashes (Text.trim s)
  rw [endsWith]
  constructor
  · intro hend
    obtain ⟨-, slashes, hcut, hslashes⟩ := dropEndWhile_eq_iff.1 hdrop.symm
    rcases (Text.trimEndSlashes (Text.trim s)).toList.eq_nil_or_concat with hnil | ⟨front, c, hcs⟩
    · rw [hnil] at hend
      cases hend
    · rw [hcs, List.concat_eq_append] at hend hcut
      rw [List.append_assoc, List.singleton_append] at hcut
      refine ⟨front, c, slashes, hcut, by simpa using hend, ?_, hslashes⟩
      -- The trimmed text does not end in a blank itself.
      rintro rfl
      have htrim := Text.endsWith_trim s
      rw [endsWith, hcut] at htrim
      rw [htrim] at hend
      cases hend
  · rintro ⟨front, blank, slashes, htrim, hblank, -, hslashes⟩
    have hkeep : (front ++ [blank]).getLast?.any isSlash = false := by
      rw [List.getLast?_concat, Option.any_some]
      cases hslash : isSlash blank with
      | false => rfl
      | true =>
        rw [isSlash, beq_iff_eq] at hslash
        rw [hslash, Text.isBlank_slash] at hblank
        cases hblank
    rw [hdrop, htrim, ← List.singleton_append, ← List.append_assoc,
      Text.dropEndWhile_append hkeep hslashes]
    simpa using hblank

end Endpoint

end PaperIndex
