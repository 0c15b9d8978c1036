import Mathlib.Data.List.Basic
import Mathlib.Data.Nat.Digits.Defs
import PaperIndex.Json.Draft
import PaperIndex.Json.Print

/-! # Tokens of a written text

Strings and integers are read as they were written: escapes are undone (`readString_escaped`), and
the digits of an integer of 64 bits denote it (`readNumber_integer`), up to the mark that ends
them. -/

namespace PaperIndex.Json

/-! ### Strings -/

/-- The code of a control character is read back. -/
theorem hexQuad?_control : ∀ n < 0x20,
    hexQuad? '0' '0' (Nat.digitChar (n / 16)) (Nat.digitChar (n % 16)) = some n := by
  decide

/-- Four digits are four bytes. -/
theorem encodedSize_control : ∀ n < 0x20,
    encodedSize ['0', '0', Nat.digitChar (n / 16), Nat.digitChar (n % 16)] = 4 := by
  decide

theorem pushUnit_control {read : List Char} {c : Char} (h : c.toNat < 0x20) :
    StringState.pushUnit ⟨read, none, false⟩ c.toNat = ⟨c :: read, none, false⟩ := by
  have hhigh : (0xD800 ≤ c.toNat && c.toNat ≤ 0xDBFF) = false := by
    rw [Bool.and_eq_false_iff, decide_eq_false_iff_not]
    omega
  have hlow : (0xDC00 ≤ c.toNat && c.toNat ≤ 0xDFFF) = false := by
    rw [Bool.and_eq_false_iff, decide_eq_false_iff_not]
    omega
  simp only [StringState.pushUnit, hhigh, hlow, Bool.false_eq_true, if_false, Char.ofNat_toNat]

/-- **A character** is read as it was escaped. -/
theorem readString_escapeChar (read : List Char) (c : Char) (rest : List Char) :
    readString ⟨read, none, false⟩ (escapeChar c ++ rest) =
      readString ⟨c :: read, none, false⟩ rest := by
  unfold escapeChar
  split_ifs with h h h h h h h hcontrol
  -- The seven characters with a short escape.
  iterate 7 (· subst h; rfl)
  · simp only [List.cons_append, List.nil_append]
    rw [readString]
    simp only [List.take_succ_cons, List.take_zero, encodedSize_control _ hcontrol,
      hexQuad?_control _ hcontrol, pushUnit_control hcontrol, lt_irrefl, if_false]
  · rw [List.singleton_append, readString]
    · rw [if_neg hcontrol]
      rfl
    · assumption
    · assumption

/-- **A string** is read as it was written. -/
theorem readString_escaped (s : String) (rest : List Char) :
    readString .start (s.toList.flatMap escapeChar ++ '"' :: rest) = .value s rest := by
  have hread : ∀ (cs read : List Char),
      readString ⟨read, none, false⟩ (cs.flatMap escapeChar ++ '"' :: rest) =
        .value (String.ofList (read.reverse ++ cs)) rest := by
    intro cs
    induction cs with
    | nil =>
      intro read
      rw [List.append_nil]
      rfl
    | cons c cs ih =>
      intro read
      rw [List.flatMap_cons, List.append_assoc, readString_escapeChar, ih, List.reverse_cons,
        List.append_assoc]
      rfl
  refine (hread s.toList []).trans ?_
  rw [List.reverse_nil, List.nil_append, String.ofList_toList]

/-! ### Numbers -/

/-- Whether a number is an integer of 64 bits, with or without a sign. -/
def Number.isPlain : Number → Bool
  | .integer n => Word.isSigned 64 n || Word.isUnsigned 64 n
  | .double _ => false

/-- What follows a value in a text: nothing, or one of the marks that end it. -/
def AtMark (cs : List Char) : Prop := ∀ c ∈ cs.head?, c = ',' ∨ c = ']' ∨ c = '\x7d'

theorem atMark_nil : AtMark [] := by
  rintro c ⟨⟩

theorem takeDigits_concat {n m : Nat} {cs : List Char} {c : Char}
    (h : takeDigits n cs = (m, [])) (hle : m * 10 + (c.toNat - 48) ≤ maxUnsigned) :
    takeDigits n (cs ++ [c]) = (m * 10 + (c.toNat - 48), []) := by
  induction cs generalizing n with
  | nil =>
    obtain rfl := congrArg Prod.fst h
    exact if_pos hle
  | cons d cs ih =>
    rw [takeDigits] at h
    rw [List.cons_append, takeDigits]
    split at h
    · next hd =>
      rw [if_pos hd]
      exact ih h
    · cases h

theorem toNat_digitChar : ∀ d < 10, (Nat.digitChar d).toNat - 48 = d := by decide

/-- The digits of a number denote it. -/
theorem takeDigits_toDigits {n : Nat} (h : n ≤ maxUnsigned) :
    takeDigits 0 (Nat.toDigits 10 n) = (n, []) := by
  induction n using Nat.strong_induction_on with
  | _ n ih =>
    by_cases hlt : n < 10
    · rw [Nat.toDigits_of_lt_base hlt]
      have hd : 0 * 10 + ((Nat.digitChar n).toNat - 48) = n := by
        rw [toNat_digitChar n hlt]
        omega
      have hnone : takeDigits 0 [] = (0, []) := rfl
      have hone := takeDigits_concat hnone (hd.trans_le h)
      rwa [hd] at hone
    · have hge : 10 ≤ n := Nat.le_of_not_lt hlt
      have hd : n / 10 * 10 + ((Nat.digitChar (n % 10)).toNat - 48) = n := by
        rw [toNat_digitChar _ (Nat.mod_lt n (by decide))]
        omega
      have hprefix := ih (n / 10) (by omega) (by omega)
      have hall := takeDigits_concat hprefix (hd.trans_le h)
      rwa [hd, ← Nat.toDigits_of_base_le (by decide) hge] at hall

theorem isDigit_of_mem_toDigits {n : Nat} {c : Char} (h : c ∈ Nat.toDigits 10 n) :
    isDigit c = true := by
  have hdigit := Nat.isDigit_of_mem_toDigits (by decide) le_rfl h
  unfold Char.isDigit at hdigit
  exact hdigit

theorem exists_toDigits_eq_cons (n : Nat) :
    ∃ c cs, Nat.toDigits 10 n = c :: cs ∧ isDigit c = true := by
  cases h : Nat.toDigits 10 n with
  | nil => exact absurd h Nat.toDigits_ne_nil
  | cons c cs => exact ⟨c, cs, rfl, isDigit_of_mem_toDigits (h ▸ List.mem_cons_self)⟩

/-- No digit follows a leading zero. -/
theorem head?_toDigits_ne {n : Nat} (h : 0 < n) : (Nat.toDigits 10 n).head? ≠ some '0' := by
  induction n using Nat.strong_induction_on with
  | _ n ih =>
    by_cases hlt : n < 10
    · have hdigits : ∀ d < 10, 0 < d → Nat.digitChar d ≠ '0' := by decide
      rw [Nat.toDigits_of_lt_base hlt]
      exact fun heq => hdigits n hlt h (Option.some.inj heq)
    · have hge : 10 ≤ n := Nat.le_of_not_lt hlt
      rw [Nat.toDigits_of_base_le (by decide) hge,
        List.head?_append_of_ne_nil _ Nat.toDigits_ne_nil]
      exact ih (n / 10) (by omega) (by omega)

/-- A number ends at a mark. -/
theorem readFraction_atMark (negative : Bool) (whole : List Char) {rest : List Char}
    (h : AtMark rest) :
    readFraction negative whole rest = numberToken (numberOf? negative whole none none) rest := by
  cases rest with
  | nil => rfl
  | cons c cs =>
    rcases h c rfl with rfl | rfl | rfl <;> rfl

/-- **The digits of a number** are read to their end. -/
theorem readNumber_digits (negative : Bool) (n : Nat) {rest : List Char} (h : AtMark rest) :
    readNumber negative (Nat.toDigits 10 n ++ rest) =
      numberToken (numberOf? negative (Nat.toDigits 10 n) none none) rest := by
  have hstop : rest.takeWhile isDigit = [] ∧ rest.dropWhile isDigit = rest := by
    cases rest with
    | nil => exact ⟨rfl, rfl⟩
    | cons c cs => rcases h c rfl with rfl | rfl | rfl <;> exact ⟨rfl, rfl⟩
  rcases Nat.eq_zero_or_pos n with rfl | hpos
  · change readNumber negative ('0' :: rest) = _
    rw [← readFraction_atMark negative _ h]
    cases rest with
    | nil => rfl
    | cons c cs => rcases h c rfl with rfl | rfl | rfl <;> rfl
  · have hdigits : ∀ c ∈ Nat.toDigits 10 n, isDigit c = true := fun c => isDigit_of_mem_toDigits
    have hzero : ∀ cs, Nat.toDigits 10 n ++ rest ≠ '0' :: cs := by
      intro cs heq
      have hhead := congrArg List.head? heq
      rw [List.head?_append_of_ne_nil _ Nat.toDigits_ne_nil] at hhead
      exact head?_toDigits_ne hpos hhead
    rw [readNumber]
    · rw [List.takeWhile_append_of_pos hdigits, hstop.1, List.append_nil,
        List.dropWhile_append_of_pos hdigits, hstop.2,
        if_neg (by simp), readFraction_atMark negative _ h]
    · exact hzero

theorem numberOf?_natural {n : Nat} (h : n ≤ maxUnsigned) :
    numberOf? false (Nat.toDigits 10 n) none none = some (.integer n) := by
  unfold numberOf?
  rw [takeDigits_toDigits h]
  rfl

theorem numberOf?_negative {n : Nat} (hpos : n ≠ 0) (h : n ≤ Word.count 63) :
    numberOf? true (Nat.toDigits 10 n) none none = some (.integer (-n)) := by
  have hle : n ≤ maxUnsigned := h.trans (by decide)
  unfold numberOf?
  rw [takeDigits_toDigits hle]
  have hfits : ¬(n = 0 ∨ Word.count 63 < n) := not_or.2 ⟨hpos, h.not_gt⟩
  exact if_neg hfits

/-- **An integer of 64 bits** is read as it was written, its sign first. -/
theorem readNumber_integer {n : Int} (hn : (Number.integer n).isPlain = true) {rest : List Char}
    (h : AtMark rest) :
    ∃ m : Nat, (Number.chars (.integer n) = Nat.toDigits 10 m ∧
        readNumber false (Nat.toDigits 10 m ++ rest) = .value (.integer n) rest) ∨
      (Number.chars (.integer n) = '-' :: Nat.toDigits 10 m ∧
        readNumber true (Nat.toDigits 10 m ++ rest) = .value (.integer n) rest) := by
  have hsigned : Word.count (64 - 1) = 9223372036854775808 := rfl
  have hunsigned : Word.count 64 = 18446744073709551616 := rfl
  simp only [Number.isPlain, Word.isSigned, Word.isUnsigned, hsigned, hunsigned, Bool.or_eq_true,
    Bool.and_eq_true, decide_eq_true_eq] at hn
  cases n with
  | ofNat m =>
    have hle : m ≤ maxUnsigned := by
      change m ≤ 18446744073709551615
      rw [Int.ofNat_eq_natCast] at hn
      omega
    refine ⟨m, .inl ⟨?_, ?_⟩⟩
    · exact Nat.toList_repr
    · rw [readNumber_digits false m h, numberOf?_natural hle]
      rfl
  | negSucc k =>
    refine ⟨k + 1, .inr ⟨?_, ?_⟩⟩
    · change ("-" ++ (k + 1).repr).toList = _
      rw [String.toList_append, Nat.toList_repr]
      rfl
    · have hle : k + 1 ≤ Word.count 63 := by
        change k + 1 ≤ 9223372036854775808
        omega
      rw [readNumber_digits true _ h, numberOf?_negative (Nat.succ_ne_zero k) hle]
      rfl

end PaperIndex.Json
