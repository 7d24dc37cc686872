import Mathlib

/-!
# Counting Without Regard to Order

A tally reads a list once and counts its items by key. Like a counter that is
filled in the order of the list, it keeps for each key the first item that had
it. The counts therefore do not depend on the order of the list, but the items
shown with them do, as soon as two different items have the same key.

Where equal keys mean equal items, nothing is left of the order: the tallies of
two permutations are permutations of each other (`tally_perm`), and sorting them
by a total order gives the same list (`insertionSort_perm`).

## Main definitions

* `tally`: The first item of each key, with how often the key occurs.

## Theorems

* `mem_tally_iff`: What a tally holds.
* `tally_of_nodup`, `forall_one_iff_nodup`: When everything is counted once.
* `tally_perm`: Permutations have the same tally, up to order.
* `tally_keys_perm`: What a tally says of the keys never depends on the order.
* `insertionSort_perm`: Sorting by a total order forgets the order.
-/

namespace STS2RL

namespace Tally

variable {α κ : Type} [DecidableEq κ] (key : α → κ)

/-- Count one more item. -/
def count (tallied : List (α × Nat)) (x : α) : List (α × Nat) :=
  if tallied.any fun counted => key counted.1 = key x then
    tallied.map fun counted => if key counted.1 = key x then (counted.1, counted.2 + 1) else counted
  else tallied ++ [(x, 1)]

/-- The first item of each key, with how often the key occurs. -/
def tally (xs : List α) : List (α × Nat) := xs.foldl (count key) []

/-- What has been counted of a list. -/
structure Counts (xs : List α) (tallied : List (α × Nat)) : Prop where
  nodup : (tallied.map fun counted => key counted.1).Nodup
  mem_iff : ∀ x n, (x, n) ∈ tallied ↔
    xs.find? (fun y => key y = key x) = some x ∧ n = xs.countP fun y => key y = key x

variable {key}

theorem counts_nil : Counts key [] [] := by
  refine ⟨List.nodup_nil, fun x n => ?_⟩
  simp

/-- An item counted before, by key. -/
theorem Counts.any_iff {xs : List α} {tallied : List (α × Nat)} (h : Counts key xs tallied)
    (x : α) : (tallied.any fun counted => key counted.1 = key x) = true ↔
      ∃ y ∈ xs, key y = key x := by
  rw [List.any_eq_true]
  constructor
  · rintro ⟨⟨y, n⟩, hmem, heq⟩
    have hfirst := ((h.mem_iff y n).mp hmem).1
    exact ⟨y, List.mem_of_find?_eq_some hfirst, of_decide_eq_true heq⟩
  · rintro ⟨y, hmem, heq⟩
    -- The first item with the key is the one that is kept.
    have hsome : (xs.find? fun z => key z = key y).isSome :=
      List.find?_isSome.mpr ⟨y, hmem, decide_eq_true rfl⟩
    rcases Option.isSome_iff_exists.mp hsome with ⟨first, hfirst⟩
    have hkey : key first = key y := by
      have hfound := List.find?_some hfirst
      exact of_decide_eq_true hfound
    refine ⟨(first, xs.countP fun z => key z = key first), ?_, decide_eq_true (hkey.trans heq)⟩
    rw [h.mem_iff, hkey]
    exact ⟨hfirst, rfl⟩

theorem Counts.concat {xs : List α} {tallied : List (α × Nat)} (h : Counts key xs tallied) (x : α) :
    Counts key (xs ++ [x]) (count key tallied x) := by
  have hany := h.any_iff x
  unfold count
  -- The key was counted before: its count goes up, and the first with it stays.
  by_cases hcounted : (tallied.any fun counted => key counted.1 = key x) = true
  · rw [if_pos hcounted]
    rcases hany.mp hcounted with ⟨y, hy, hkey⟩
    refine ⟨?_, fun z n => ?_⟩
    · -- The keys are the ones there were.
      have hkeys : (tallied.map fun counted => if key counted.1 = key x then
          (counted.1, counted.2 + 1) else counted).map (fun counted => key counted.1) =
          tallied.map fun counted => key counted.1 := by
        rw [List.map_map]
        refine List.map_congr_left fun counted _ => ?_
        dsimp only [Function.comp_apply]
        split <;> rfl
      rw [hkeys]
      exact h.nodup
    -- An element that comes last is the first with its key only where there was none before.
    · have hfirst : (xs ++ [x]).find? (fun w => key w = key z) = some z ↔
          xs.find? (fun w => key w = key z) = some z := by
        rw [List.find?_append]
        cases hfound : xs.find? fun w => key w = key z with
        | some first => simp
        | none =>
            simp only [Option.none_or, List.find?_cons, List.find?_nil]
            constructor
            · intro hx
              split at hx
              · rename_i hxz
                rw [List.find?_eq_none] at hfound
                exact absurd (decide_eq_true (hkey.trans (of_decide_eq_true hxz))) (hfound y hy)
              · cases hx
            · intro hnone
              cases hnone
      rw [hfirst, List.countP_append, List.countP_singleton, List.mem_map]
      constructor
      · rintro ⟨⟨w, m⟩, hmem, heq⟩
        rcases (h.mem_iff w m).mp hmem with ⟨hw, rfl⟩
        dsimp only at heq
        split at heq
        · rename_i hwx
          cases heq
          exact ⟨hw, by simp [hwx]⟩
        · rename_i hwx
          cases heq
          exact ⟨hw, by simp [Ne.symm hwx]⟩
      · rintro ⟨hz, rfl⟩
        refine ⟨(z, xs.countP fun w => key w = key z), (h.mem_iff _ _).mpr ⟨hz, rfl⟩, ?_⟩
        dsimp only
        by_cases hzx : key z = key x
        · simp [hzx]
        · simp [hzx, Ne.symm hzx]
  -- The key is new: it gets a place of its own at the end, with one count.
  · rw [if_neg hcounted]
    have hnew : ∀ y ∈ xs, key y ≠ key x := fun y hy hkey => hcounted (hany.mpr ⟨y, hy, hkey⟩)
    refine ⟨?_, fun z n => ?_⟩
    · rw [List.map_append, List.nodup_append]
      refine ⟨h.nodup, List.nodup_singleton _, ?_⟩
      intro k hk k' hk' heq
      rcases List.mem_map.mp hk with ⟨counted, hmem, rfl⟩
      rw [List.map_singleton, List.mem_singleton] at hk'
      refine hcounted (List.any_eq_true.mpr ⟨counted, hmem, decide_eq_true ?_⟩)
      rw [heq, hk']
    · rw [List.mem_append, List.mem_singleton, List.find?_append, List.countP_append,
        List.countP_singleton, h.mem_iff]
      constructor
      · rintro (⟨hz, rfl⟩ | heq)
        · refine ⟨by rw [hz, Option.some_or], ?_⟩
          have hzx := hnew z (List.mem_of_find?_eq_some hz)
          simp [Ne.symm hzx]
        · rw [Prod.mk.injEq] at heq
          rcases heq with ⟨rfl, rfl⟩
          have hnone : xs.find? (fun w => key w = key z) = none :=
            List.find?_eq_none.mpr fun w hw => by simp [hnew w hw]
          have hzero : xs.countP (fun w => key w = key z) = 0 :=
            List.countP_eq_zero.mpr fun w hw => by simp [hnew w hw]
          simp [hnone, hzero]
      · rintro ⟨hz, rfl⟩
        cases hfound : xs.find? fun w => key w = key z with
        | some first =>
            rw [hfound, Option.some_or, Option.some.injEq] at hz
            subst hz
            have hzx := hnew first (List.mem_of_find?_eq_some hfound)
            exact Or.inl ⟨rfl, by simp [Ne.symm hzx]⟩
        | none =>
            rw [hfound, Option.none_or] at hz
            have hmem := List.mem_of_find?_eq_some hz
            rw [List.mem_singleton] at hmem
            subst hmem
            have hzero : xs.countP (fun w => key w = key z) = 0 :=
              List.countP_eq_zero.mpr fun w hw => by simp [hnew w hw]
            exact Or.inr (by simp [hzero])

/-- A tally has counted its list. -/
theorem counts_tally (xs : List α) : Counts key xs (tally key xs) := by
  unfold tally
  induction xs using List.reverseRecOn with
  | nil => exact counts_nil
  | append_singleton xs x ih =>
      rw [List.foldl_append]
      exact ih.concat x

/-- A tally holds the first item of each key, with how often the key occurs. -/
theorem mem_tally_iff {xs : List α} {x : α} {n : Nat} :
    (x, n) ∈ tally key xs ↔
      xs.find? (fun y => key y = key x) = some x ∧ n = xs.countP fun y => key y = key x :=
  (counts_tally xs).mem_iff x n

theorem nodup_tally (xs : List α) : (tally key xs).Nodup :=
  List.Nodup.of_map _ (counts_tally xs).nodup

/-- Where equal keys mean equal items, every item is the first of its key. -/
theorem find?_key_eq_some_iff {xs : List α} (hkey : ∀ x ∈ xs, ∀ y ∈ xs, key x = key y → x = y)
    (x : α) : xs.find? (fun y => key y = key x) = some x ↔ x ∈ xs := by
  refine ⟨List.mem_of_find?_eq_some, fun hmem => ?_⟩
  have hsome : (xs.find? fun y => key y = key x).isSome :=
    List.find?_isSome.mpr ⟨x, hmem, decide_eq_true rfl⟩
  rcases Option.isSome_iff_exists.mp hsome with ⟨first, hfirst⟩
  have hfound := List.find?_some hfirst
  rw [hfirst, hkey first (List.mem_of_find?_eq_some hfirst) x hmem (of_decide_eq_true hfound)]

/-- Where no key occurs twice, every item is counted once. -/
theorem tally_of_nodup {xs : List α} (h : (xs.map key).Nodup) :
    tally key xs = xs.map fun x => (x, 1) := by
  unfold tally
  induction xs using List.reverseRecOn with
  | nil => rfl
  | append_singleton xs x ih =>
      rw [List.map_append, List.nodup_append] at h
      rw [List.foldl_append, ih h.1, List.map_append, List.foldl_cons, List.foldl_nil]
      refine if_neg fun hany => ?_
      rcases List.any_eq_true.mp hany with ⟨counted, hmem, heq⟩
      rcases List.mem_map.mp hmem with ⟨y, hy, rfl⟩
      exact h.2.2 _ (List.mem_map_of_mem hy) _ List.mem_cons_self (of_decide_eq_true heq)

/-- Every item is counted once exactly where no key occurs twice. -/
theorem forall_one_iff_nodup {xs : List α} :
    (∀ counted ∈ tally key xs, counted.2 = 1) ↔ (xs.map key).Nodup := by
  constructor
  · intro hone
    refine List.nodup_iff_count_le_one.mpr fun k => ?_
    by_cases hk : k ∈ xs.map key
    · -- The first item of the key shows how often it occurs.
      rcases List.mem_map.mp hk with ⟨y, hy, rfl⟩
      have hsome : (xs.find? fun z => key z = key y).isSome :=
        List.find?_isSome.mpr ⟨y, hy, decide_eq_true rfl⟩
      rcases Option.isSome_iff_exists.mp hsome with ⟨first, hfirst⟩
      have hkey : key first = key y := by
        have hfound := List.find?_some hfirst
        exact of_decide_eq_true hfound
      have hmem : (first, xs.countP fun z => key z = key y) ∈ tally key xs :=
        mem_tally_iff.mpr ⟨by rw [hkey, hfirst], by rw [hkey]⟩
      have hcount := hone _ hmem
      rw [List.count, List.countP_map]
      have heq : (xs.countP fun z => key z = key y) = xs.countP ((· == key y) ∘ key) :=
        List.countP_congr fun z _ => by simp
      omega
    · rw [List.count_eq_zero_of_not_mem hk]
      exact Nat.zero_le 1
  · intro hnodup counted hmem
    rw [tally_of_nodup hnodup] at hmem
    rcases List.mem_map.mp hmem with ⟨x, -, rfl⟩
    rfl

/-- Permutations have the same tally, up to order. -/
theorem tally_perm {xs ys : List α} (hkey : ∀ x ∈ xs, ∀ y ∈ xs, key x = key y → x = y)
    (h : xs.Perm ys) : (tally key xs).Perm (tally key ys) := by
  have hkey' : ∀ x ∈ ys, ∀ y ∈ ys, key x = key y → x = y := fun x hx y hy =>
    hkey x (h.mem_iff.mpr hx) y (h.mem_iff.mpr hy)
  rw [List.perm_ext_iff_of_nodup (nodup_tally xs) (nodup_tally ys)]
  rintro ⟨x, n⟩
  rw [mem_tally_iff, mem_tally_iff, find?_key_eq_some_iff hkey, find?_key_eq_some_iff hkey',
    h.mem_iff, h.countP_eq]

/-- How often a key occurs is all that a tally says of it, whatever item it shows. -/
theorem mem_tally_keys_iff {xs : List α} {k : κ} {n : Nat} :
    (k, n) ∈ (tally key xs).map (fun counted => (key counted.1, counted.2)) ↔
      k ∈ xs.map key ∧ n = (xs.map key).count k := by
  have hcount : ∀ x, (xs.countP fun y => key y = key x) = (xs.map key).count (key x) := by
    intro x
    rw [List.count, List.countP_map]
    exact List.countP_congr fun y _ => by simp
  rw [List.mem_map]
  constructor
  · rintro ⟨⟨x, m⟩, hmem, heq⟩
    rcases mem_tally_iff.mp hmem with ⟨hfirst, rfl⟩
    rw [Prod.mk.injEq] at heq
    rcases heq with ⟨rfl, rfl⟩
    exact ⟨List.mem_map_of_mem (List.mem_of_find?_eq_some hfirst), hcount x⟩
  · rintro ⟨hk, rfl⟩
    rcases List.mem_map.mp hk with ⟨y, hy, rfl⟩
    have hsome : (xs.find? fun z => key z = key y).isSome :=
      List.find?_isSome.mpr ⟨y, hy, decide_eq_true rfl⟩
    rcases Option.isSome_iff_exists.mp hsome with ⟨first, hfirst⟩
    have hkey : key first = key y := by
      have hfound := List.find?_some hfirst
      exact of_decide_eq_true hfound
    refine ⟨(first, xs.countP fun z => key z = key first),
      mem_tally_iff.mpr ⟨by rw [hkey, hfirst], rfl⟩, ?_⟩
    rw [hkey, hcount y]

/-- What a tally says of the keys does not depend on the order of the list. -/
theorem tally_keys_perm {xs ys : List α} (h : xs.Perm ys) :
    ((tally key xs).map fun counted => (key counted.1, counted.2)).Perm
      ((tally key ys).map fun counted => (key counted.1, counted.2)) := by
  have hnodup : ∀ zs : List α,
      ((tally key zs).map fun counted => (key counted.1, counted.2)).Nodup := by
    intro zs
    refine List.Nodup.of_map Prod.fst ?_
    rw [List.map_map]
    exact (counts_tally zs).nodup
  rw [List.perm_ext_iff_of_nodup (hnodup xs) (hnodup ys)]
  rintro ⟨k, n⟩
  have hkeys : (xs.map key).Perm (ys.map key) := h.map key
  rw [mem_tally_keys_iff, mem_tally_keys_iff, hkeys.mem_iff, hkeys.count_eq]

/-- Sorting what is in some order by a total order does not depend on that order. -/
theorem insertionSort_perm {r : α → α → Prop} [DecidableRel r] [Std.Total r] [IsTrans α r]
    {xs ys : List α} (hantisymm : ∀ a ∈ xs, ∀ b ∈ xs, r a b → r b a → a = b) (h : xs.Perm ys) :
    xs.insertionSort r = ys.insertionSort r := by
  refine List.Perm.eq_of_pairwise (fun a b ha hb => ?_) (List.pairwise_insertionSort r xs)
    (List.pairwise_insertionSort r ys)
    ((List.perm_insertionSort r xs).trans (h.trans (List.perm_insertionSort r ys).symm))
  have ha' := (List.mem_insertionSort r).mp ha
  have hb' := h.mem_iff.mpr ((List.mem_insertionSort r).mp hb)
  exact hantisymm a ha' b hb'

end Tally

end STS2RL
