import Mathlib.Data.Nat.Log
import Mathlib.Tactic.Ring
import PaperIndex.Counter.Cell

/-! # Sums in cells

The cell of a tally to which natural numbers are added holds their sum as an integer as long as the
sum fits into 64 bits, and a double from then on (`holds_plus`): the sum of doubles that is formed
when the integers overflow is never rounded back below `2 ^ 63`.

For this, rounding is monotone (`double_mono`), also from one power of two to the next, since it
does not cross a number with the same last place (`double_le_of_dvd`, `le_double_of_dvd`). Of two
numbers with a sum of `2 ^ 63` at least, the greater one loses `512` at most and the smaller one
loses nothing that the other one has not left to it (`le_double_add`). -/

namespace PaperIndex.Rounding

/-! ### Quotients -/

theorem quotient_mul (q : Nat) {d : Nat} (hd : 0 < d) : quotient (q * d) d = q := by
  unfold quotient
  rw [Nat.mul_mod_left, Nat.mul_div_cancel q hd]
  exact if_pos (.inl hd)

theorem quotient_mono {m n : Nat} (h : m ≤ n) (d : Nat) : quotient m d ≤ quotient n d := by
  have hle : m / d ≤ n / d := Nat.div_le_div_right h
  unfold quotient
  rcases hle.lt_or_eq with hlt | heq
  · dsimp only
    split_ifs <;> omega
  · have hm := Nat.div_add_mod m d
    have hn := Nat.div_add_mod n d
    rw [heq] at hm ⊢
    dsimp only
    split_ifs <;> omega

/-- Half a unit is lost at most. -/
theorem le_quotient_mul (n : Nat) {d : Nat} (hd : 0 < d) : 2 * n ≤ 2 * (quotient n d * d) + d := by
  have hn := Nat.div_add_mod' n d
  have hlt := Nat.mod_lt n hd
  unfold quotient
  dsimp only
  split_ifs
  · omega
  · rw [Nat.add_mul, Nat.one_mul]
    omega

/-! ### Doubles -/

theorem unit_pos (n : Nat) : 0 < unit n := Nat.two_pow_pos _

theorem unit_dvd_double (n : Nat) : unit n ∣ double n := Nat.dvd_mul_left ..

theorem double_le_of_dvd {n b : Nat} (hdvd : unit n ∣ b) (h : n ≤ b) : double n ≤ b := by
  obtain ⟨q, rfl⟩ := hdvd
  have hq := quotient_mono h (unit n)
  rw [Nat.mul_comm, quotient_mul q (unit_pos n)] at hq
  rw [double, Nat.mul_comm]
  exact Nat.mul_le_mul_left _ hq

theorem le_double_of_dvd {n b : Nat} (hdvd : unit n ∣ b) (h : b ≤ n) : b ≤ double n := by
  obtain ⟨q, rfl⟩ := hdvd
  have hq := quotient_mono h (unit n)
  rw [Nat.mul_comm, quotient_mul q (unit_pos n)] at hq
  rw [double, Nat.mul_comm (unit n)]
  exact Nat.mul_le_mul_right _ hq

theorem unit_dvd_pow {n k : Nat} (h : n.log2 - 52 ≤ k) : unit n ∣ 2 ^ k := Nat.pow_dvd_pow 2 h

theorem double_mono {m n : Nat} (h : m ≤ n) : double m ≤ double n := by
  rcases Nat.eq_zero_or_pos m with rfl | hm
  · exact Nat.zero_le _
  have hlog : m.log2 ≤ n.log2 := by
    rw [Nat.log2_eq_log_two, Nat.log2_eq_log_two]
    exact Nat.log_mono_right h
  rcases hlog.lt_or_eq with hlt | heq
  · -- A power of two lies between the numbers, and between what they are rounded to.
    have hmlt : m < 2 ^ n.log2 :=
      Nat.lt_log2_self.trans_le (Nat.pow_le_pow_right Nat.two_pos hlt)
    have hnle : 2 ^ n.log2 ≤ n := Nat.log2_self_le (by omega)
    calc double m ≤ 2 ^ n.log2 := double_le_of_dvd (unit_dvd_pow (by omega)) hmlt.le
      _ ≤ double n := le_double_of_dvd (unit_dvd_pow (Nat.sub_le ..)) hnle
  · unfold double unit
    rw [heq]
    exact Nat.mul_le_mul_right _ (quotient_mono h _)

theorem le_double {n : Nat} (h : Word.count 63 ≤ n) : Word.count 63 ≤ double n :=
  double_mono h

/-- A number short of `2 ^ 63` by half its last place is rounded to the even power. -/
theorem le_double_of_add_le {n : Nat} (h : Word.count 63 ≤ n + 512) : Word.count 63 ≤ double n := by
  have hmono : double (Word.count 63 - 512) ≤ double n := double_mono (by omega)
  exact (by decide +kernel : Word.count 63 ≤ double (Word.count 63 - 512)).trans hmono

/-- Between `2 ^ 62` and `2 ^ 63`, doubles are multiples of 1024. -/
theorem double_of_mem_binade {m : Nat} (hle : Word.count 62 ≤ m) (hlt : m < Word.count 63) :
    1024 ∣ double m ∧ m ≤ double m + 512 := by
  have hunit : unit m = 1024 := by
    have hlog : m.log2 = 62 := by
      rw [Nat.log2_eq_log_two]
      exact Nat.log_eq_of_pow_le_of_lt_pow hle hlt
    rw [unit, hlog]
  have hdvd := unit_dvd_double m
  have hlost := le_quotient_mul m (unit_pos m)
  rw [← double] at hlost
  rw [hunit] at hdvd hlost
  exact ⟨hdvd, by omega⟩

/-- Below `2 ^ 62`, rounding respects the multiples of 512. -/
theorem le_double_of_lt {n b : Nat} (hlt : n < Word.count 62) (hdvd : 512 ∣ b) (h : b ≤ n) :
    b ≤ double n := by
  have hlog : n.log2 < 62 := by
    rw [Nat.log2_eq_log_two]
    exact Nat.log_lt_of_lt_pow' (by decide) hlt
  exact le_double_of_dvd ((unit_dvd_pow (k := 9) (by omega)).trans hdvd) h

/-- **The sum of doubles** does not stay below `2 ^ 63` if the exact sum does not. -/
theorem le_double_add {m n : Nat} (h : Word.count 63 ≤ m + n) :
    Word.count 63 ≤ double (double m + double n) := by
  wlog hle : n ≤ m generalizing m n
  · rw [Nat.add_comm]
    exact this (by omega) (by omega)
  have hhalf : Word.count 63 = 2 * Word.count 62 := by decide
  have hpower : Word.count 62 ≤ double (Word.count 62) := by decide +kernel
  by_cases hm : Word.count 63 ≤ m
  · exact le_double ((le_double hm).trans (Nat.le_add_right ..))
  by_cases hn : Word.count 62 ≤ n
  · have hm62 := hpower.trans (double_mono (hn.trans hle))
    have hn62 := hpower.trans (double_mono hn)
    exact le_double (by omega)
  obtain ⟨hdvd, hlost⟩ := double_of_mem_binade (m := m) (by omega) (by omega)
  -- What the smaller number has to make up for is a multiple of 512.
  have hrest : Word.count 63 - (double m + 512) ≤ double n := by
    refine le_double_of_lt (by omega) ?_ (by omega)
    have h63 : 512 ∣ Word.count 63 := by decide
    exact Nat.dvd_sub h63 (Nat.dvd_add (dvd_trans (by decide) hdvd) (Nat.dvd_refl 512))
  exact le_double_of_add_le (by omega)

theorem signedDouble_natCast (n : Nat) : signedDouble n = double n := by
  rcases Nat.eq_zero_or_pos n with rfl | hn
  · rfl
  · rw [signedDouble, Int.natAbs_natCast, Int.sign_natCast_of_ne_zero hn.ne', Int.one_mul]

end PaperIndex.Rounding

namespace PaperIndex.Counter.Cell

/-- **What a cell holds** after natural numbers with a sum `s` are added. -/
def Holds (s : Nat) : Cell → Prop
  | .integer n => n = s ∧ s < Word.count 63
  | .real x => Word.count 63 ≤ s ∧ (Word.count 63 : Int) ≤ x

theorem ofDouble_of_le {x : Int} (h : (Word.count 63 : Int) ≤ x) : ofDouble x = .real x := by
  have : Word.greatest 63 < Word.count 63 := by decide
  exact if_neg fun hx => by omega

/-- **Adding a number** to a cell adds it to the sum. -/
theorem holds_plus {s : Nat} {cell : Cell} (h : cell.Holds s) (d : Nat) :
    (cell.plus d).Holds (s + d) := by
  cases cell with
  | integer n =>
    obtain ⟨rfl, -⟩ := h
    rw [plus, ← Int.natCast_add]
    cases Nat.lt_or_ge (s + d) (Word.count 63) with
    | inl hfits =>
      rw [if_pos (fits_natCast_iff.2 hfits)]
      exact ⟨rfl, hfits⟩
    | inr hover =>
      rw [if_neg (mt fits_natCast_iff.1 (Nat.not_lt.2 hover)), Rounding.signedDouble_natCast s,
        Rounding.signedDouble_natCast d, ← Int.natCast_add, Rounding.signedDouble_natCast]
      have hbeyond := Rounding.le_double_add hover
      rw [ofDouble_of_le (Int.ofNat_le.2 hbeyond)]
      exact ⟨hover, Int.ofNat_le.2 hbeyond⟩
  | real x =>
    obtain ⟨hs, hx⟩ := h
    obtain ⟨m, rfl⟩ := Int.eq_ofNat_of_zero_le ((Int.natCast_nonneg _).trans hx)
    have hbeyond : Word.count 63 ≤ Rounding.double (m + Rounding.double d) :=
      Rounding.le_double ((Int.ofNat_le.1 hx).trans (Nat.le_add_right ..))
    rw [plus, Rounding.signedDouble_natCast d, ← Int.natCast_add, Rounding.signedDouble_natCast,
      ofDouble_of_le (Int.ofNat_le.2 hbeyond)]
    exact ⟨hs.trans (Nat.le_add_right ..), Int.ofNat_le.2 hbeyond⟩

/-- The sum is read exactly if it fits. -/
theorem read_of_holds {s : Nat} {cell : Cell} (h : cell.Holds s) :
    cell.read = if s < Word.count 63 then .ok (s : Int) else .error .notInteger := by
  cases cell with
  | integer n => rw [if_pos h.2, ← h.1, read]
  | real x => rw [if_neg (Nat.not_lt.2 h.1), read]

/-- Two of the greatest integers make a double. -/
example :
    ((Cell.integer (Word.greatest 63)).plus (Word.greatest 63)).read = .error .notInteger := by
  decide +kernel

end PaperIndex.Counter.Cell
