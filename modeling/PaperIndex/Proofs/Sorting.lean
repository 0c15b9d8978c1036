import Mathlib.Data.String.Basic
import Mathlib.Order.OrderDual
import PaperIndex.Proofs.Table

/-! # Sorted lists without repetitions

Scans and rankings are sorted by a number and, where it is the same, by a name. If the names are
distinct, this order is strict (`pairwise_twoKeys`). Names are made distinct by `eraseDups`
(`nodup_eraseDups`). -/

namespace PaperIndex

section TwoKeys
variable {α κ : Type} [LinearOrder κ] {f : α → κ} {g : α → String} {le : α → α → Bool}
  (hle : ∀ a b, le a b = true ↔ f a < f b ∨ f a = f b ∧ g a ≤ g b)
include hle

theorem twoKeys_trans (a b c : α) (hab : le a b = true) (hbc : le b c = true) :
    le a c = true := by
  rw [hle] at hab hbc ⊢
  rcases hab with hab | ⟨hab, hab'⟩ <;> rcases hbc with hbc | ⟨hbc, hbc'⟩
  · exact .inl (hab.trans hbc)
  · exact .inl (hbc ▸ hab)
  · exact .inl (hab ▸ hbc)
  · exact .inr ⟨hab.trans hbc, hab'.trans hbc'⟩

theorem twoKeys_total (a b : α) : (le a b || le b a) = true := by
  rw [Bool.or_eq_true, hle, hle]
  rcases lt_trichotomy (f a) (f b) with hlt | heq | hlt
  · exact .inl (.inl hlt)
  · rcases le_total (g a) (g b) with hname | hname
    · exact .inl (.inr ⟨heq, hname⟩)
    · exact .inr (.inr ⟨heq.symm, hname⟩)
  · exact .inr (.inl hlt)

theorem twoKeys_antisymm {a b : α} (hab : le a b = true) (hba : le b a = true) :
    f a = f b ∧ g a = g b := by
  rw [hle] at hab hba
  rcases hab with hab | ⟨hab, hab'⟩ <;> rcases hba with hba | ⟨hba, hba'⟩
  · exact absurd hab hba.asymm
  · exact absurd hab hba.not_gt
  · exact absurd hba hab.not_gt
  · exact ⟨hab, le_antisymm hab' hba'⟩

/-- **Items with distinct names** are sorted strictly. -/
theorem pairwise_twoKeys {xs : List α} (hnodup : (xs.map g).Nodup) :
    (xs.mergeSort le).Pairwise fun a b => f a < f b ∨ f a = f b ∧ g a < g b := by
  have hdistinct : ((xs.mergeSort le).map g).Nodup :=
    ((List.mergeSort_perm xs le).map g).nodup_iff.2 hnodup
  refine (List.pairwise_mergeSort (twoKeys_trans hle) (twoKeys_total hle) xs).imp₂ ?_
    (List.pairwise_map.1 hdistinct)
  intro a b hab hne
  exact ((hle a b).1 hab).imp_right fun ⟨heq, hname⟩ => ⟨heq, lt_of_le_of_ne hname hne⟩

end TwoKeys

/-- What is left without repetitions has none. -/
theorem nodup_eraseDups {α : Type} [DecidableEq α] (xs : List α) : xs.eraseDups.Nodup := by
  induction h : xs.length using Nat.strong_induction_on generalizing xs with
  | _ n ih =>
    cases xs with
    | nil => exact List.nodup_nil
    | cons x xs =>
      rw [List.eraseDups_cons, List.nodup_cons, List.mem_eraseDups]
      have hlt : (xs.filter fun y => !y == x).length < n := by
        rw [← h]
        exact Nat.lt_succ_of_le (List.length_filter_le ..)
      exact ⟨by simp, ih _ hlt _ rfl⟩

end PaperIndex
