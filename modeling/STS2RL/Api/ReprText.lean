import STS2RL.Api.ChoiceCardSemantics
import STS2RL.Core.JsonRewrite
import STS2RL.Core.PyNumber
import Mathlib.Data.List.Basic

/-!
# Scalars Told Apart by Their Text

The `repr` of a scalar, with the name of its type in front, determines the scalar,
since the `repr` of a text does. Values that differ at a place only have different
texts then, wherever the place is.

## Theorems

* `taggedRepr_inj`: A scalar is determined by the name of its type and its `repr`.
* `jsonRepr_ne_of_rewrites`: Values that differ at a place have different texts, if
  what stands there has.
-/

namespace STS2RL

namespace Api

section Tagged

/-- The text of a number that is not negative has no sign. -/
theorem nat_toString_ne_sign (n : Nat) (t : String) : toString n ≠ "-" ++ t := by
  intro h
  have hmem : '-' ∈ (toString n).toList := by
    rw [h]
    simp
  change '-' ∈ (Nat.repr n).toList at hmem
  rw [Nat.toList_repr] at hmem
  have hdigit := Nat.isDigit_of_mem_toDigits (by omega) (by omega) hmem
  cases hdigit

theorem int_toString_inj {y z : Int} (h : toString y = toString z) : y = z := by
  cases y with
  | ofNat m =>
      cases z with
      | ofNat n => exact congrArg Int.ofNat (PyNumber.nat_toString_inj h)
      | negSucc n => exact absurd h (nat_toString_ne_sign m _)
  | negSucc m =>
      cases z with
      | ofNat n => exact absurd h.symm (nat_toString_ne_sign n _)
      | negSucc n =>
          have hlist : ("-" ++ toString (m + 1)).toList = ("-" ++ toString (n + 1)).toList :=
            congrArg String.toList h
          rw [String.toList_append, String.toList_append] at hlist
          have heq := PyNumber.nat_toString_inj
            (String.toList_inj.mp (List.append_cancel_left hlist))
          have hmn : m = n := by omega
          rw [hmn]

/-- A scalar is determined by the name of its type and its `repr`. -/
theorem taggedRepr_inj {v w : Json} (hv : isScalar v = true) (hw : isScalar w = true)
    (h : typeName v ++ ":" ++ jsonRepr v = typeName w ++ ":" ++ jsonRepr w) : v = w := by
  have hlist := congrArg String.toList h
  simp only [String.toList_append] at hlist
  have hcancel : ∀ (name : String) (a b : String),
      name.toList ++ ":".toList ++ a.toList = name.toList ++ ":".toList ++ b.toList → a = b :=
    fun name a b hab => String.toList_inj.mp (List.append_cancel_left hab)
  -- Different types differ in the first letter of their names.
  cases v <;> cases hv <;> cases w <;> cases hw
  all_goals first
    | rfl
    | (simp [typeName] at hlist; done)
    | skip
  case bool.refl.bool.refl b c =>
    have heq := hcancel "bool" _ _ hlist
    cases b <;> cases c <;> first | rfl | exact absurd heq (by decide)
  case int.refl.int.refl y z =>
    have heq : toString y = toString z := hcancel "int" _ _ hlist
    rw [int_toString_inj heq]
  case float.refl.float.refl a b =>
    have heq : a = b := hcancel "float" _ _ hlist
    rw [heq]
  case str.refl.str.refl s t =>
    have heq : pyRepr s = pyRepr t := hcancel "str" _ _ hlist
    rw [pyRepr_inj heq]

end Tagged

section Places

open STS2RL.Json

variable {Ψ : PyStr → Json → Json → Prop}

/-- What is around one of several joined texts. -/
theorem intercalate_split (sep : String) (before after : List String) :
    ∃ front back : String, ∀ text : String,
      String.intercalate sep (before ++ text :: after) = front ++ text ++ back := by
  induction before with
  | nil =>
      by_cases hafter : after = []
      · subst hafter
        exact ⟨"", "", fun text => by simp⟩
      · refine ⟨"", sep ++ String.intercalate sep after, fun text => ?_⟩
        rw [List.nil_append, String.intercalate_cons_of_ne_nil hafter, String.empty_append,
          String.append_assoc]
  | cons first rest ih =>
      rcases ih with ⟨front, back, hsplit⟩
      refine ⟨first ++ sep ++ front, back, fun text => ?_⟩
      rw [List.cons_append, String.intercalate_cons_of_ne_nil (by simp), hsplit text]
      simp only [String.append_assoc]

theorem append_cancel {front x y back : String} (h : front ++ x ++ back = front ++ y ++ back) :
    x = y := by
  have hlist := congrArg String.toList h
  simp only [String.toList_append, List.append_cancel_right_eq, List.append_cancel_left_eq] at hlist
  exact String.toList_inj.mp hlist

theorem intercalate_inj {sep : String} {before after : List String} {x y : String}
    (h : String.intercalate sep (before ++ x :: after) =
      String.intercalate sep (before ++ y :: after)) : x = y := by
  rcases intercalate_split sep before after with ⟨front, back, hsplit⟩
  rw [hsplit, hsplit] at h
  exact append_cancel h

theorem jsonReprList_append (xs ys : List Json) :
    jsonReprList (xs ++ ys) = jsonReprList xs ++ jsonReprList ys := by
  induction xs with
  | nil => simp [jsonReprList]
  | cons x rest ih => simp [jsonReprList, ih]

theorem jsonReprFields_append (xs ys : Fields) :
    jsonReprFields (xs ++ ys) = jsonReprFields xs ++ jsonReprFields ys := by
  induction xs with
  | nil => simp [jsonReprFields]
  | cons m rest ih =>
      rcases m with ⟨k, v⟩
      simp [jsonReprFields, ih]

theorem jsonRepr_member_inj {before after : Fields} {key : PyStr} {v w : Json}
    (h : jsonRepr (.obj (before ++ (key, v) :: after)) =
      jsonRepr (.obj (before ++ (key, w) :: after))) : jsonRepr v = jsonRepr w := by
  simp only [jsonRepr, jsonReprFields_append, jsonReprFields] at h
  have hmember := intercalate_inj (append_cancel h)
  refine @append_cancel (pyRepr key ++ ": ") _ _ "" ?_
  rw [hmember]

/-- Values that differ at a place where the texts do have different texts. -/
theorem jsonRepr_ne_of_rewrites (hΨ : ∀ key v w, Ψ key v w → jsonRepr v ≠ jsonRepr w)
    {a b : Json} (h : Rewrites Ψ a b) : jsonRepr a ≠ jsonRepr b := by
  induction h with
  | here h => exact fun heq => hΨ _ _ _ h (jsonRepr_member_inj heq)
  | member _ ih => exact fun heq => ih (jsonRepr_member_inj heq)
  | item _ ih =>
      intro heq
      simp only [jsonRepr, jsonReprList_append, jsonReprList] at heq
      exact ih (intercalate_inj (append_cancel heq))

end Places

end Api

end STS2RL
