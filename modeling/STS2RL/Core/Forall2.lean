import Mathlib

/-!
# Lists in Step

Two lists whose items are related one by one. What holds of an item of one list is
carried to the item that stands against it, and searching, filtering and order are
carried with it.

## Theorems

* `forall₂_exists_left`, `forall₂_exists_right`: What an item stands against.
* `forall₂_and`: Two relations at once.
* `forall₂_find?`, `forall₂_filter`: Searches that look for the same.
* `pairwise_of_forall₂`: An order that one list takes over from the other.
-/

namespace STS2RL

variable {α β : Type} {R S : α → β → Prop} {xs : List α} {ys : List β}

theorem forall₂_exists_right (h : List.Forall₂ R xs ys) {x : α} (hx : x ∈ xs) :
    ∃ y ∈ ys, R x y := by
  induction h with
  | nil => cases hx
  | cons hhead _ ih =>
      rcases List.mem_cons.mp hx with rfl | hrest
      · exact ⟨_, List.mem_cons_self, hhead⟩
      · rcases ih hrest with ⟨y, hy, hR⟩
        exact ⟨y, List.mem_cons_of_mem _ hy, hR⟩

theorem forall₂_exists_left (h : List.Forall₂ R xs ys) {y : β} (hy : y ∈ ys) :
    ∃ x ∈ xs, R x y := by
  rcases forall₂_exists_right (R := fun y x => R x y) h.flip hy with ⟨x, hx, hR⟩
  exact ⟨x, hx, hR⟩

theorem forall₂_and (h : List.Forall₂ R xs ys) (h' : List.Forall₂ S xs ys) :
    List.Forall₂ (fun x y => R x y ∧ S x y) xs ys := by
  induction h with
  | nil => exact .nil
  | cons hhead _ ih =>
      cases h' with
      | cons hhead' htail' => exact .cons ⟨hhead, hhead'⟩ (ih htail')

/-- Two searches that decide alike find items that stand against each other. -/
theorem forall₂_find? (h : List.Forall₂ R xs ys) {p : α → Bool} {q : β → Bool}
    (hpq : ∀ x y, R x y → p x = q y) : Option.Rel R (xs.find? p) (ys.find? q) := by
  induction h with
  | nil => exact .none
  | @cons x y _ _ hhead _ ih =>
      rw [List.find?_cons, List.find?_cons, hpq x y hhead]
      cases q y with
      | true => exact .some hhead
      | false => exact ih

theorem forall₂_filter (h : List.Forall₂ R xs ys) {p : α → Bool} {q : β → Bool}
    (hpq : ∀ x y, R x y → p x = q y) : List.Forall₂ R (xs.filter p) (ys.filter q) := by
  induction h with
  | nil => exact .nil
  | cons hhead _ ih =>
      rw [List.filter_cons, List.filter_cons, ← hpq _ _ hhead]
      split
      · exact .cons hhead ih
      · exact ih

/-- An order of the one list that the other takes over. -/
theorem pairwise_of_forall₂ {P : α → α → Prop} {Q : β → β → Prop}
    (hkeep : ∀ a b x y, R a x → R b y → P a b → Q x y) (h : List.Forall₂ R xs ys)
    (hsorted : xs.Pairwise P) : ys.Pairwise Q := by
  induction h with
  | nil => exact List.Pairwise.nil
  | cons hhead htail ih =>
      rw [List.pairwise_cons] at hsorted ⊢
      refine ⟨fun y hy => ?_, ih hsorted.2⟩
      rcases forall₂_exists_left htail hy with ⟨b, hb, hR⟩
      exact hkeep _ b _ y hhead hR (hsorted.1 b hb)

end STS2RL
