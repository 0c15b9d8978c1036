import Mathlib.Data.List.Forall2

/-! # Steps that may fail

A step after another one succeeds exactly if both do, and a list of steps if all of them do. -/

namespace PaperIndex

variable {ε α β : Type}

theorem bind_eq_ok_iff {x : Except ε α} {f : α → Except ε β} {b : β} :
    (x >>= f) = .ok b ↔ ∃ a, x = .ok a ∧ f a = .ok b := by
  cases x with
  | error e => exact iff_of_false nofun fun ⟨_, h, _⟩ => nomatch h
  | ok a => simp [bind, Except.bind]

/-- **A list** is read exactly if each of its items is. -/
theorem mapM_eq_ok_iff {f : α → Except ε β} {xs : List α} {ys : List β} :
    xs.mapM f = .ok ys ↔ List.Forall₂ (fun x y => f x = .ok y) xs ys := by
  induction xs generalizing ys with
  | nil =>
    rw [List.forall₂_nil_left_iff]
    exact ⟨fun h => (Except.ok.inj h).symm, fun h => h ▸ rfl⟩
  | cons x xs ih =>
    rw [List.mapM_cons, bind_eq_ok_iff, List.forall₂_cons_left_iff]
    refine exists_congr fun y => ⟨fun ⟨hx, hrest⟩ => ?_, fun ⟨rest, hx, hrest, hys⟩ => ⟨hx, ?_⟩⟩
    · obtain ⟨rest, hxs, hys⟩ := bind_eq_ok_iff.1 hrest
      exact ⟨rest, hx, ih.1 hxs, (Except.ok.inj hys).symm⟩
    · exact bind_eq_ok_iff.2 ⟨rest, ih.2 hrest, hys ▸ rfl⟩

/-- Items that can all be read are read in their order. -/
theorem mapM_eq_ok {f : α → Except ε β} {g : α → β} {xs : List α}
    (h : ∀ x ∈ xs, f x = .ok (g x)) : xs.mapM f = .ok (xs.map g) := by
  rw [mapM_eq_ok_iff, List.forall₂_map_right_iff, List.forall₂_same]
  exact h

/-- A list can be read if all of its items can. -/
theorem exists_mapM_iff {f : α → Except ε β} {xs : List α} :
    (∃ ys, xs.mapM f = .ok ys) ↔ ∀ x ∈ xs, ∃ y, f x = .ok y := by
  induction xs with
  | nil => exact iff_of_true ⟨[], rfl⟩ fun x hx => absurd hx List.not_mem_nil
  | cons x xs ih =>
    rw [List.forall_mem_cons, ← ih]
    simp only [mapM_eq_ok_iff, List.forall₂_cons_left_iff]
    exact ⟨fun ⟨_, y, ys, hx, hxs, _⟩ => ⟨⟨y, hx⟩, ys, hxs⟩,
      fun ⟨⟨y, hx⟩, ys, hxs⟩ => ⟨_, y, ys, hx, hxs, rfl⟩⟩

/-- What is read of a list comes from its items. -/
theorem exists_of_mem_mapM {f : α → Except ε β} {xs : List α} {ys : List β}
    (h : xs.mapM f = .ok ys) {y : β} (hy : y ∈ ys) : ∃ x ∈ xs, f x = .ok y := by
  induction mapM_eq_ok_iff.1 h with
  | nil => cases hy
  | cons hx hxs ih =>
    rcases List.mem_cons.1 hy with rfl | hy
    · exact ⟨_, List.mem_cons_self, hx⟩
    · obtain ⟨x, hmem, hread⟩ := ih (mapM_eq_ok_iff.2 hxs) hy
      exact ⟨x, List.mem_cons_of_mem _ hmem, hread⟩

end PaperIndex
