import STS2RL.Core.JsonParse
import Mathlib.Data.List.Lex

/-!
# Members in Order

Sorting the members of every object gives one representative of each content. It
is a projection (`sortKeys_idem`), and dropping members by their names may come
before it or after (`sortKeys_dropKeys`): what is left of a sorted list is sorted.
So a value may be written, read and written again, with members dropped on the
way, and the text is the one that dropping them at once gives (`canonical_again`).

## Main definitions

* `SortedFields`: Members in the order of their names.
* `dropKeys`: The value without the members of some names, at every depth.
* `lacksKeys`: Whether a value has no such members.

## Theorems

* `sortKeys_idem`: A sorted value is its own sort.
* `sortKeys_dropKeys`: Dropping members and sorting them commute.
* `dropKeys_of_lacks`: Where there are none to drop, nothing is dropped.
* `isDecoded_sortKeys`: What is read again is read again in order.
* `canonical_again`: A value that is written, read and written again.
-/

namespace STS2RL

namespace PyStr

theorem lt_iff {a b : PyStr} : a.lt b = true ↔ a.codes < b.codes := decide_eq_true_iff

theorem lt_eq_false_iff {a b : PyStr} : a.lt b = false ↔ b.codes ≤ a.codes := by
  rw [← Bool.not_eq_true, lt_iff, not_lt]

end PyStr

namespace Json

section Order

/-- Members in the order of their names. -/
def SortedFields (fields : List (PyStr × Json)) : Prop :=
  fields.Pairwise fun a b => a.1.codes ≤ b.1.codes

/-- A member inserted in its place leaves the members sorted. -/
theorem sortedFields_insertField (k : PyStr) (v : Json) {l : List (PyStr × Json)}
    (h : SortedFields l) : SortedFields (insertField k v l) := by
  induction l with
  | nil => exact List.pairwise_singleton _ _
  | cons e rest ih =>
      rcases e with ⟨k', v'⟩
      have hrest := List.pairwise_cons.mp h
      by_cases hlt : k'.lt k = true
      · rw [insertField, if_pos hlt]
        refine List.pairwise_cons.mpr ⟨fun e he => ?_, ih hrest.2⟩
        rcases (mem_insertField_iff e k v rest).mp he with rfl | hmem
        · exact le_of_lt (PyStr.lt_iff.mp hlt)
        · exact hrest.1 e hmem
      · rw [insertField, if_neg hlt]
        rw [Bool.not_eq_true, PyStr.lt_eq_false_iff] at hlt
        refine List.pairwise_cons.mpr ⟨fun e he => ?_, h⟩
        rcases List.mem_cons.mp he with rfl | hmem
        · exact hlt
        · exact le_trans hlt (hrest.1 e hmem)

theorem sortedFields_sortKeysFields (l : List (PyStr × Json)) :
    SortedFields (sortKeysFields l) := by
  induction l with
  | nil => exact List.Pairwise.nil
  | cons e rest ih => exact sortedFields_insertField e.1 _ ih

/-- A member goes to the front of those with no smaller name. -/
theorem insertField_front {k : PyStr} (v : Json) {l : List (PyStr × Json)}
    (h : ∀ e ∈ l, k.codes ≤ e.1.codes) : insertField k v l = (k, v) :: l := by
  cases l with
  | nil => rfl
  | cons e rest =>
      have hlt : e.1.lt k = false := PyStr.lt_eq_false_iff.mpr (h e List.mem_cons_self)
      rw [insertField, if_neg (by rw [hlt]; simp)]

theorem perm_insertField (k : PyStr) (v : Json) (l : List (PyStr × Json)) :
    (insertField k v l).Perm ((k, v) :: l) := by
  induction l with
  | nil => exact .refl _
  | cons e rest ih =>
      rcases e with ⟨k', v'⟩
      by_cases hlt : k'.lt k = true
      · rw [insertField, if_pos hlt]
        exact (ih.cons _).trans (.swap _ _ _)
      · rw [insertField, if_neg hlt]

/-- The names are those there were. -/
theorem keys_sortKeysFields (l : List (PyStr × Json)) :
    ((sortKeysFields l).map Prod.fst).Perm (l.map Prod.fst) := by
  induction l with
  | nil => exact .refl _
  | cons e rest ih =>
      rw [sortKeysFields]
      exact ((perm_insertField _ _ _).map Prod.fst).trans (ih.cons _)

/-- Members in order, each with a sorted value, are their own sort. -/
theorem sortKeysFields_of_sorted {l : List (PyStr × Json)} (hsorted : SortedFields l)
    (hvalues : ∀ e ∈ l, e.2.sortKeys = e.2) : sortKeysFields l = l := by
  induction l with
  | nil => rfl
  | cons e rest ih =>
      rcases e with ⟨k, v⟩
      have h := List.pairwise_cons.mp hsorted
      rw [sortKeysFields, ih h.2 fun e he => hvalues e (List.mem_cons_of_mem _ he),
        hvalues (k, v) List.mem_cons_self]
      exact insertField_front v h.1

mutual

/-- A sorted value is its own sort. -/
theorem sortKeys_idem : (v : Json) → v.sortKeys.sortKeys = v.sortKeys
  | null | bool _ | int _ | float _ | str _ => rfl
  | list xs => congrArg list (sortKeysList_idem xs)
  | obj fields =>
      congrArg obj (sortKeysFields_of_sorted (sortedFields_sortKeysFields fields)
        (sorted_values fields))

theorem sortKeysList_idem : (xs : List Json) → sortKeysList (sortKeysList xs) = sortKeysList xs
  | [] => rfl
  | x :: xs => by rw [sortKeysList, sortKeysList, sortKeys_idem x, sortKeysList_idem xs]

theorem sorted_values : (fields : List (PyStr × Json)) →
    ∀ e ∈ sortKeysFields fields, e.2.sortKeys = e.2
  | [] => fun _ he => by cases he
  | (k, v) :: rest => fun e he => by
      rw [sortKeysFields, mem_insertField_iff] at he
      rcases he with rfl | hmem
      · exact sortKeys_idem v
      · exact sorted_values rest e hmem

end

end Order

section Drop

variable (drop : PyStr → Bool)

mutual

/-- The value without the members of some names, at every depth. -/
def dropKeys : Json → Json
  | null => null
  | bool b => bool b
  | int z => int z
  | float r => float r
  | str s => str s
  | list xs => list (dropKeysList xs)
  | obj fields => obj (dropKeysFields fields)

/-- Each item without the dropped keys. -/
def dropKeysList : List Json → List Json
  | [] => []
  | x :: xs => x.dropKeys :: dropKeysList xs

/-- The members without the dropped keys, at any depth. -/
def dropKeysFields : List (PyStr × Json) → List (PyStr × Json)
  | [] => []
  | (k, v) :: rest =>
      if drop k then dropKeysFields rest else (k, v.dropKeys) :: dropKeysFields rest

end

/-- What is left after dropping was there. -/
theorem mem_of_mem_dropKeysFields {l : List (PyStr × Json)} {e : PyStr × Json}
    (h : e ∈ dropKeysFields drop l) : ∃ v, (e.1, v) ∈ l := by
  induction l with
  | nil => cases h
  | cons e' rest ih =>
      rcases e' with ⟨k, v⟩
      rw [dropKeysFields] at h
      split at h
      · rcases ih h with ⟨w, hw⟩
        exact ⟨w, List.mem_cons_of_mem _ hw⟩
      · rcases List.mem_cons.mp h with rfl | hmem
        · exact ⟨v, List.mem_cons_self⟩
        · rcases ih hmem with ⟨w, hw⟩
          exact ⟨w, List.mem_cons_of_mem _ hw⟩

/-- A member that is dropped may be put in anywhere. -/
theorem dropKeysFields_insertField_of_drop {k : PyStr} (hk : drop k = true) (v : Json)
    (l : List (PyStr × Json)) :
    dropKeysFields drop (insertField k v l) = dropKeysFields drop l := by
  induction l with
  | nil => simp [insertField, dropKeysFields, hk]
  | cons e rest ih =>
      rcases e with ⟨k', v'⟩
      by_cases hlt : k'.lt k = true
      · rw [insertField, if_pos hlt, dropKeysFields, dropKeysFields, ih]
      · rw [insertField, if_neg hlt, dropKeysFields, if_pos hk]

/-- A member that stays is stored in its place. -/
theorem dropKeysFields_setL {k : PyStr} (hk : drop k = false) (v : Json)
    (l : List (PyStr × Json)) :
    dropKeysFields drop (Dict.setL k v l) =
      Dict.setL k (v.dropKeys drop) (dropKeysFields drop l) := by
  induction l with
  | nil => simp [Dict.setL, dropKeysFields, hk]
  | cons e rest ih =>
      rcases e with ⟨k', v'⟩
      by_cases heq : k' = k
      · subst heq
        simp [Dict.setL, dropKeysFields, hk]
      · by_cases hdrop : drop k' = true
        · simp [Dict.setL, dropKeysFields, heq, hdrop, ih]
        · simp [Dict.setL, dropKeysFields, heq, hdrop, ih]

/-- A member that stays is put in before or after, where the others are in order. -/
theorem dropKeysFields_insertField {k : PyStr} (hk : drop k = false) (v : Json)
    {l : List (PyStr × Json)} (hsorted : SortedFields l) :
    dropKeysFields drop (insertField k v l) =
      insertField k (v.dropKeys drop) (dropKeysFields drop l) := by
  induction l with
  | nil => simp [insertField, dropKeysFields, hk]
  | cons e rest ih =>
      rcases e with ⟨k', v'⟩
      have h := List.pairwise_cons.mp hsorted
      by_cases hlt : k'.lt k = true
      · rw [insertField, if_pos hlt, dropKeysFields, dropKeysFields, ih h.2]
        by_cases hk' : drop k' = true
        · rw [if_pos hk', if_pos hk']
        · rw [if_neg hk', if_neg hk', insertField, if_pos hlt]
      · -- No smaller name follows, and none is left of what follows.
        have hsmallest : ∀ e ∈ (k', v') :: rest, k.codes ≤ e.1.codes := by
          rw [Bool.not_eq_true, PyStr.lt_eq_false_iff] at hlt
          intro e he
          rcases List.mem_cons.mp he with rfl | hmem
          · exact hlt
          · exact le_trans hlt (h.1 e hmem)
        rw [insertField, if_neg hlt, dropKeysFields, if_neg (by rw [hk]; simp)]
        refine (insertField_front _ fun e he => ?_).symm
        rcases mem_of_mem_dropKeysFields drop he with ⟨w, hw⟩
        exact hsmallest (e.1, w) hw

mutual

/-- Dropping members and sorting them commute. -/
theorem sortKeys_dropKeys : (v : Json) → (v.dropKeys drop).sortKeys = v.sortKeys.dropKeys drop
  | null | bool _ | int _ | float _ | str _ => rfl
  | list xs => congrArg list (sortKeysList_dropKeysList xs)
  | obj fields => congrArg obj (sortKeysFields_dropKeysFields fields)

theorem sortKeysList_dropKeysList : (xs : List Json) →
    sortKeysList (dropKeysList drop xs) = dropKeysList drop (sortKeysList xs)
  | [] => rfl
  | x :: xs => by
      rw [dropKeysList, sortKeysList, sortKeysList, dropKeysList, sortKeys_dropKeys x,
        sortKeysList_dropKeysList xs]

theorem sortKeysFields_dropKeysFields : (fields : List (PyStr × Json)) →
    sortKeysFields (dropKeysFields drop fields) = dropKeysFields drop (sortKeysFields fields)
  | [] => rfl
  | (k, v) :: rest => by
      rw [dropKeysFields, sortKeysFields]
      by_cases hk : drop k = true
      · rw [if_pos hk, dropKeysFields_insertField_of_drop drop hk,
          sortKeysFields_dropKeysFields rest]
      · rw [if_neg hk, dropKeysFields_insertField drop (by simpa using hk) _
          (sortedFields_sortKeysFields rest), sortKeysFields, sortKeys_dropKeys v,
          sortKeysFields_dropKeysFields rest]

end

mutual

/-- Whether no member of the value, at any depth, has one of the names. -/
def lacksKeys : Json → Bool
  | null | bool _ | int _ | float _ | str _ => true
  | list xs => lacksKeysList xs
  | obj fields => lacksKeysFields fields

/-- No item has a dropped key. -/
def lacksKeysList : List Json → Bool
  | [] => true
  | x :: xs => x.lacksKeys && lacksKeysList xs

/-- No member has a dropped key, at any depth. -/
def lacksKeysFields : List (PyStr × Json) → Bool
  | [] => true
  | (k, v) :: rest => !drop k && v.lacksKeys && lacksKeysFields rest

end

theorem dropKeysList_eq_map (xs : List Json) : dropKeysList drop xs = xs.map (dropKeys drop) := by
  induction xs with
  | nil => rfl
  | cons x xs ih => rw [dropKeysList, ih, List.map_cons]

theorem lacksKeysList_iff (xs : List Json) :
    lacksKeysList drop xs = true ↔ ∀ x ∈ xs, x.lacksKeys drop = true := by
  induction xs with
  | nil => simp [lacksKeysList]
  | cons x xs ih => simp [lacksKeysList, ih]

theorem lacksKeysFields_iff (fields : List (PyStr × Json)) :
    lacksKeysFields drop fields = true ↔
      ∀ e ∈ fields, drop e.1 = false ∧ e.2.lacksKeys drop = true := by
  induction fields with
  | nil => simp [lacksKeysFields]
  | cons e rest ih => simp [lacksKeysFields, ih]

/-- Of a record that lacks the names, any value of one member that does may be another. -/
theorem lacksKeysFields_setL {k : PyStr} {v w : Json} {l : List (PyStr × Json)}
    (h : lacksKeysFields drop (Dict.setL k v l) = true) :
    v.lacksKeys drop = true ∧
      (w.lacksKeys drop = true → lacksKeysFields drop (Dict.setL k w l) = true) := by
  induction l with
  | nil =>
      simp only [Dict.setL, lacksKeysFields, Bool.and_eq_true] at h ⊢
      exact ⟨h.1.2, fun hw => ⟨⟨h.1.1, hw⟩, h.2⟩⟩
  | cons e rest ih =>
      rcases e with ⟨k', v'⟩
      by_cases heq : k' = k
      · simp only [Dict.setL, heq, if_true, lacksKeysFields, Bool.and_eq_true] at h ⊢
        exact ⟨h.1.2, fun hw => ⟨⟨h.1.1, hw⟩, h.2⟩⟩
      · simp only [Dict.setL, heq, if_false, lacksKeysFields, Bool.and_eq_true] at h ⊢
        exact ⟨(ih h.2).1, fun hw => ⟨h.1, (ih h.2).2 hw⟩⟩

mutual

/-- Where there is nothing to drop, nothing is dropped. -/
theorem dropKeys_of_lacks : (v : Json) → v.lacksKeys drop = true → v.dropKeys drop = v
  | null, _ | bool _, _ | int _, _ | float _, _ | str _, _ => rfl
  | list xs, h => congrArg list (dropKeysList_of_lacks xs h)
  | obj fields, h => congrArg obj (dropKeysFields_of_lacks fields h)

theorem dropKeysList_of_lacks : (xs : List Json) → lacksKeysList drop xs = true →
    dropKeysList drop xs = xs
  | [], _ => rfl
  | x :: xs, h => by
      rw [lacksKeysList, Bool.and_eq_true] at h
      rw [dropKeysList, dropKeys_of_lacks x h.1, dropKeysList_of_lacks xs h.2]

theorem dropKeysFields_of_lacks : (fields : List (PyStr × Json)) →
    lacksKeysFields drop fields = true → dropKeysFields drop fields = fields
  | [], _ => rfl
  | (k, v) :: rest, h => by
      rw [lacksKeysFields, Bool.and_eq_true, Bool.and_eq_true, Bool.not_eq_true'] at h
      rw [dropKeysFields, if_neg (by rw [h.1.1]; simp), dropKeys_of_lacks v h.1.2,
        dropKeysFields_of_lacks rest h.2]

end

end Drop

section Decoded

theorem isDecodedMembers_insertField (k : PyStr) (v : Json) (l : List (PyStr × Json)) :
    isDecodedMembers (insertField k v l) =
      (PyStr.unpaired k.codes && v.isDecoded && isDecodedMembers l) := by
  induction l with
  | nil => rfl
  | cons e rest ih =>
      rcases e with ⟨k', v'⟩
      by_cases hlt : k'.lt k = true
      · simp only [insertField, if_pos hlt, isDecodedMembers, ih]
        ac_rfl
      · simp only [insertField, if_neg hlt, isDecodedMembers]

mutual

/-- What is read again is read again in order. -/
theorem isDecoded_sortKeys : (v : Json) → v.sortKeys.isDecoded = v.isDecoded
  | null | bool _ | int _ | float _ | str _ => rfl
  | list xs => isDecodedItems_sortKeys xs
  | obj fields => by
      have hnodup := (keys_sortKeysFields fields).nodup_iff
      simp only [sortKeys, isDecoded, isDecodedMembers_sortKeys fields, hnodup]

theorem isDecodedItems_sortKeys :
    (xs : List Json) → isDecodedItems (sortKeysList xs) = isDecodedItems xs
  | [] => rfl
  | x :: xs => by
      rw [sortKeysList, isDecodedItems, isDecodedItems, isDecoded_sortKeys x,
        isDecodedItems_sortKeys xs]

theorem isDecodedMembers_sortKeys :
    (l : List (PyStr × Json)) → isDecodedMembers (sortKeysFields l) = isDecodedMembers l
  | [] => rfl
  | (k, v) :: rest => by
      rw [sortKeysFields, isDecodedMembers_insertField, isDecoded_sortKeys v,
        isDecodedMembers_sortKeys rest, isDecodedMembers]

end

/-- A value that is written, read and written again without some members has the
    text of the value without them. -/
theorem canonical_again (drop : PyStr → Bool) {v : Json} (h : v.isDecoded = true) :
    (loads (dumps v.sortKeys)).map (fun read => dumps (read.dropKeys drop).sortKeys) =
      some (dumps (v.dropKeys drop).sortKeys) := by
  rw [loads_dumps ((isDecoded_sortKeys v).trans h), Option.map_some, ← sortKeys_dropKeys,
    sortKeys_idem]

end Decoded

end Json

end STS2RL
