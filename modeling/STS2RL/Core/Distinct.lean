import Mathlib

/-!
# Lists Without Repetition

Tables of requests, of workers and of ids grow at the end, one row at a time, and no
key may occur in them twice. A list keeps that when it grows exactly if the new key is
new. A grid has no cell twice exactly if its rows have none, once the columns have none.

## Theorems

* `nodup_append_one`, `nodup_map_append_one`: A list that grows at the end.
* `nodup_product_iff`: A grid.
* `concat_sublist_concat`: How a list that grew is a sublist of another that grew.
-/

namespace STS2RL

variable {α γ : Type}

theorem nodup_append_one {xs : List α} {x : α} : (xs ++ [x]).Nodup ↔ x ∉ xs ∧ xs.Nodup := by
  rw [← List.concat_eq_append, List.nodup_concat]

theorem nodup_map_append_one {f : α → γ} {xs : List α} {x : α} :
    ((xs ++ [x]).map f).Nodup ↔ f x ∉ xs.map f ∧ (xs.map f).Nodup := by
  rw [List.map_append, List.map_singleton, nodup_append_one]

/-- A grid whose columns are distinct holds a cell twice only if it holds a row twice. -/
theorem nodup_product_iff {xs : List α} {ys : List γ} (hne : ys ≠ []) (hys : ys.Nodup) :
    (xs ×ˢ ys).Nodup ↔ xs.Nodup := by
  refine ⟨fun hnodup => ?_, fun hxs => hxs.product hys⟩
  obtain ⟨y, hy⟩ := List.exists_mem_of_ne_nil ys hne
  have hcolumn : (xs.map fun x => (x, y)).Sublist (xs ×ˢ ys) := by
    clear hnodup
    induction xs with
    | nil => exact List.Sublist.refl _
    | cons x xs ih =>
        rw [List.map_cons, List.product_cons]
        exact (List.singleton_sublist.mpr (List.mem_map_of_mem hy)).append ih
  exact (hcolumn.nodup hnodup).of_map _

theorem concat_sublist_concat {l l' : List α} {a a' : α}
    (h : (l ++ [a]).Sublist (l' ++ [a'])) :
    (l ++ [a]).Sublist l' ∨ (a = a' ∧ l.Sublist l') := by
  rw [← List.reverse_sublist, List.reverse_append, List.reverse_append] at h
  cases h with
  | cons _ h =>
      refine .inl (List.reverse_sublist.mp ?_)
      rw [List.reverse_append]
      exact h
  | cons_cons _ h => exact .inr ⟨rfl, List.reverse_sublist.mp h⟩

end STS2RL
