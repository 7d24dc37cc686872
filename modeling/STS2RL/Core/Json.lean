import STS2RL.Core.Dict

/-!
# JSON Values

The values a decoded JSON document is made of, with the text type they need.

A decoded string may hold a lone surrogate: `"\ud800"` is a legal escape, and
decoding it gives a text that no encoder will take back. `PyStr` therefore has
two shapes, scalar text and scalar text up to a lone surrogate; both are
canonical, so equality of texts is equality of terms.

Objects keep their members in the order of the document. Two objects with the
same members in another order are different values with the same content, and
`sortKeys` picks one representative of each content: it sorts the members of
every object, at every depth, by code points. The sort is stable and lookups do
not see it (`lookup_sortKeysFields`).

## Main definitions

* `PyStr`: Text that may hold lone surrogates.
* `Json`: Decoded JSON values.
* `Json.encodable`: Whether every text of a value can be encoded.
* `Json.sortKeys`: The value with the members of every object in key order.
* `Json.SameContent`: Equality up to the order of members.

## Theorems

* `lookup_sortKeysFields`: Sorting members changes no lookup.
* `mem_sortKeysFields_iff`: Sorting members loses and invents none.
* `SameContent.encodable_eq`: What can be encoded depends on the content only.
-/

namespace STS2RL

/-- Text that may hold lone surrogates. `lone before code rest` is the scalar
    text `before`, then the surrogate `0xD800 + code`, then `rest`. -/
inductive PyStr where
  | text (s : String)
  | lone (before : String) (code : Fin 2048) (rest : PyStr)
  deriving DecidableEq, Repr

namespace PyStr

instance : Coe String PyStr := ⟨text⟩

/-- The code points, in order. -/
def codes : PyStr → List Nat
  | text s => s.toList.map Char.toNat
  | lone before code rest =>
      before.toList.map Char.toNat ++ (0xD800 + code.val) :: rest.codes

/-- Concatenation with scalar text on the right. -/
def append : PyStr → String → PyStr
  | text s, t => text (s ++ t)
  | lone before code rest, t => lone before code (rest.append t)

/-- The empty text. -/
def isEmpty (s : PyStr) : Bool := s = text ""

/-- Whether the text can be encoded, that is, holds no lone surrogate. -/
def encodable : PyStr → Bool
  | text _ => true
  | lone _ _ _ => false

/-- Code point order, the order in which member names are sorted. -/
def lt (a b : PyStr) : Bool := decide (a.codes < b.codes)

theorem lt_irrefl (a : PyStr) : a.lt a = false := by
  simp only [lt, decide_eq_false_iff_not]
  exact List.lt_irrefl a.codes

end PyStr

/-- Decoded JSON values. A float is carried by its shortest text, since nothing
    here computes with floats. -/
inductive Json where
  | null
  | bool (b : Bool)
  | int (z : Int)
  | float (repr : String)
  | str (s : PyStr)
  | list (xs : List Json)
  | obj (fields : List (PyStr × Json))
  deriving Repr

namespace Json

instance : Inhabited Json := ⟨null⟩

mutual

/-- Equality of values is decided by recursion on the first. -/
def decEq : (a b : Json) → Decidable (a = b)
  | null, b => match b with
    | null => isTrue rfl
    | bool _ | int _ | float _ | str _ | list _ | obj _ => isFalse (by simp)
  | bool x, b => match b with
    | bool y => decidable_of_iff (x = y) (by simp)
    | null | int _ | float _ | str _ | list _ | obj _ => isFalse (by simp)
  | int x, b => match b with
    | int y => decidable_of_iff (x = y) (by simp)
    | null | bool _ | float _ | str _ | list _ | obj _ => isFalse (by simp)
  | float x, b => match b with
    | float y => decidable_of_iff (x = y) (by simp)
    | null | bool _ | int _ | str _ | list _ | obj _ => isFalse (by simp)
  | str x, b => match b with
    | str y => decidable_of_iff (x = y) (by simp)
    | null | bool _ | int _ | float _ | list _ | obj _ => isFalse (by simp)
  | list xs, b => match b with
    | list ys => @decidable_of_iff _ (xs = ys) (by simp) (decEqList xs ys)
    | null | bool _ | int _ | float _ | str _ | obj _ => isFalse (by simp)
  | obj xs, b => match b with
    | obj ys => @decidable_of_iff _ (xs = ys) (by simp) (decEqFields xs ys)
    | null | bool _ | int _ | float _ | str _ | list _ => isFalse (by simp)

/-- Equality of lists of values is decided item by item. -/
def decEqList : (xs ys : List Json) → Decidable (xs = ys)
  | [], ys => match ys with
    | [] => isTrue rfl
    | _ :: _ => isFalse (by simp)
  | x :: xs, ys => match ys with
    | [] => isFalse (by simp)
    | y :: ys =>
      match decEq x y, decEqList xs ys with
      | isTrue h₁, isTrue h₂ => isTrue (by rw [h₁, h₂])
      | isFalse h₁, _ => isFalse (fun hc => h₁ (List.cons.inj hc).1)
      | _, isFalse h₂ => isFalse (fun hc => h₂ (List.cons.inj hc).2)

/-- Equality of members is decided member by member, in order. -/
def decEqFields : (xs ys : List (PyStr × Json)) → Decidable (xs = ys)
  | [], ys => match ys with
    | [] => isTrue rfl
    | _ :: _ => isFalse (by simp)
  | (k, x) :: xs, ys => match ys with
    | [] => isFalse (by simp)
    | (k', y) :: ys =>
      if hk : k = k' then
        match decEq x y, decEqFields xs ys with
        | isTrue h₁, isTrue h₂ => isTrue (by rw [hk, h₁, h₂])
        | isFalse h₁, _ => isFalse (fun hc => h₁ (Prod.mk.inj (List.cons.inj hc).1).2)
        | _, isFalse h₂ => isFalse (fun hc => h₂ (List.cons.inj hc).2)
      else isFalse (fun hc => hk (Prod.mk.inj (List.cons.inj hc).1).1)

end

instance : DecidableEq Json := decEq

mutual

/-- Whether every text of the value, member names included, can be encoded. -/
def encodable : Json → Bool
  | null | bool _ | int _ | float _ => true
  | str s => s.encodable
  | list xs => encodableList xs
  | obj fields => encodableFields fields

/-- Every item has a text in UTF-8. -/
def encodableList : List Json → Bool
  | [] => true
  | x :: xs => x.encodable && encodableList xs

/-- Every key and every value has a text in UTF-8. -/
def encodableFields : List (PyStr × Json) → Bool
  | [] => true
  | (k, v) :: rest => k.encodable && v.encodable && encodableFields rest

end

/-- Insert a member before the first one whose name is not smaller. -/
def insertField (k : PyStr) (v : Json) : List (PyStr × Json) → List (PyStr × Json)
  | [] => [(k, v)]
  | (k', v') :: rest =>
      if k'.lt k then (k', v') :: insertField k v rest else (k, v) :: (k', v') :: rest

mutual

/-- The value with the members of every object in key order. -/
def sortKeys : Json → Json
  | null => null
  | bool b => bool b
  | int z => int z
  | float r => float r
  | str s => str s
  | list xs => list (sortKeysList xs)
  | obj fields => obj (sortKeysFields fields)

/-- The keys of each item are sorted. -/
def sortKeysList : List Json → List Json
  | [] => []
  | x :: xs => x.sortKeys :: sortKeysList xs

/-- The members in the order of their keys, with sorted values. -/
def sortKeysFields : List (PyStr × Json) → List (PyStr × Json)
  | [] => []
  | (k, v) :: rest => insertField k v.sortKeys (sortKeysFields rest)

end

/-- Equality of values up to the order of object members. -/
def SameContent (a b : Json) : Prop := a.sortKeys = b.sortKeys

instance (a b : Json) : Decidable (a.SameContent b) :=
  inferInstanceAs (Decidable (a.sortKeys = b.sortKeys))

/-- The members of an object. -/
def fields? : Json → Option (List (PyStr × Json))
  | obj fields => some fields
  | _ => none

theorem lookup_insertField (k k₀ : PyStr) (v : Json) (l : List (PyStr × Json)) :
    Dict.lookupL k₀ (insertField k v l) =
      if k = k₀ then some v else Dict.lookupL k₀ l := by
  induction l with
  | nil => simp [insertField, Dict.lookupL]
  | cons e rest ih =>
      rcases e with ⟨k', v'⟩
      by_cases hlt : k'.lt k = true
      · -- A smaller name is another name, so skipping it cannot hide `k`.
        have hne : k' ≠ k := by
          rintro rfl
          rw [PyStr.lt_irrefl] at hlt
          exact absurd hlt (by simp)
        simp only [insertField, if_pos hlt, Dict.lookupL, ih]
        by_cases hk : k = k₀
        · rw [if_pos hk, if_pos hk, if_neg (by rw [← hk]; exact hne)]
        · rw [if_neg hk, if_neg hk]
      · simp only [insertField, if_neg hlt, Dict.lookupL]

/-- Sorting members changes no lookup. -/
theorem lookup_sortKeysFields (k : PyStr) (l : List (PyStr × Json)) :
    Dict.lookupL k (sortKeysFields l) = (Dict.lookupL k l).map sortKeys := by
  induction l with
  | nil => rfl
  | cons e rest ih =>
      rcases e with ⟨k', v⟩
      rw [sortKeysFields, lookup_insertField, Dict.lookupL, ih]
      split <;> rfl

theorem mem_insertField_iff (e : PyStr × Json) (k : PyStr) (v : Json)
    (l : List (PyStr × Json)) : e ∈ insertField k v l ↔ e = (k, v) ∨ e ∈ l := by
  induction l with
  | nil => simp [insertField]
  | cons e' rest ih =>
      rcases e' with ⟨k', v'⟩
      by_cases hlt : k'.lt k = true
      · simp only [insertField, if_pos hlt, List.mem_cons, ih]
        tauto
      · simp only [insertField, if_neg hlt, List.mem_cons]

/-- Sorting members loses and invents none. -/
theorem mem_sortKeysFields_iff (k : PyStr) (w : Json) (l : List (PyStr × Json)) :
    (k, w) ∈ sortKeysFields l ↔ ∃ v, (k, v) ∈ l ∧ v.sortKeys = w := by
  induction l with
  | nil => simp [sortKeysFields]
  | cons e rest ih =>
      rcases e with ⟨k', v'⟩
      rw [sortKeysFields, mem_insertField_iff, ih]
      constructor
      · rintro (heq | ⟨v, hmem, hv⟩)
        · simp only [Prod.mk.injEq] at heq
          exact ⟨v', by rw [heq.1]; exact List.mem_cons_self, heq.2.symm⟩
        · exact ⟨v, List.mem_cons_of_mem _ hmem, hv⟩
      · rintro ⟨v, hmem, hv⟩
        rcases List.mem_cons.mp hmem with heq | hmem'
        · simp only [Prod.mk.injEq] at heq
          exact Or.inl (by rw [heq.1, ← hv, heq.2])
        · exact Or.inr ⟨v, hmem', hv⟩

theorem encodableFields_insertField (k : PyStr) (v : Json) (l : List (PyStr × Json)) :
    encodableFields (insertField k v l) =
      (k.encodable && v.encodable && encodableFields l) := by
  induction l with
  | nil => rfl
  | cons e rest ih =>
      rcases e with ⟨k', v'⟩
      by_cases hlt : k'.lt k = true
      · simp only [insertField, if_pos hlt, encodableFields, ih]
        ac_rfl
      · simp only [insertField, if_neg hlt, encodableFields]

mutual

/-- Sorting members does not change what can be encoded. -/
theorem encodable_sortKeys : (v : Json) → v.sortKeys.encodable = v.encodable
  | null | bool _ | int _ | float _ | str _ => rfl
  | list xs => encodableList_sortKeys xs
  | obj fields => encodableFields_sortKeys fields

theorem encodableList_sortKeys :
    (xs : List Json) → encodableList (sortKeysList xs) = encodableList xs
  | [] => rfl
  | x :: xs => by
      rw [sortKeysList, encodableList, encodableList, encodable_sortKeys x,
        encodableList_sortKeys xs]

theorem encodableFields_sortKeys :
    (l : List (PyStr × Json)) → encodableFields (sortKeysFields l) = encodableFields l
  | [] => rfl
  | (k, v) :: rest => by
      rw [sortKeysFields, encodableFields_insertField, encodable_sortKeys v,
        encodableFields_sortKeys rest, encodableFields]

end

/-- Values of the same content are encodable together. -/
theorem SameContent.encodable_eq {a b : Json} (h : a.SameContent b) :
    a.encodable = b.encodable := by
  rw [← encodable_sortKeys a, h, encodable_sortKeys b]

end Json

end STS2RL
