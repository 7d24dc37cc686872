import STS2RL.Core.Json

/-!
# Rewriting in One Place

Two values that differ in one place: somewhere inside, the value of one member
is replaced by another, as a relation between the two allows. Values that differ
in several places are joined by a chain of such steps, so a function whose
result survives one step survives them all.

A rewritten value is a list or an object before and after. What looks at scalars
only, or at the kind of a value, does not see the difference.

## Main definitions

* `RewritesMembers`, `Rewrites`: The step, on members and on values.
* `SameOutside`: Values that are equal unless both are containers of one kind.

## Theorems

* `Rewrites.sameOutside`: A step is inside of a container.
* `RewritesMembers.lookup`: What a step does to a lookup.
* `Rewrites.flip`, `Rewrites.mono`, `Rewrites.ne`: Rules for the relation.
-/

namespace STS2RL

namespace Json

variable {Φ Ψ : PyStr → Json → Json → Prop}

/-- One value inside of a value is replaced, where the relation allows it. -/
inductive Rewrites (Φ : PyStr → Json → Json → Prop) : Json → Json → Prop where
  | here {before after : List (PyStr × Json)} {key : PyStr} {v w : Json} (h : Φ key v w) :
      Rewrites Φ (.obj (before ++ (key, v) :: after)) (.obj (before ++ (key, w) :: after))
  | member {before after : List (PyStr × Json)} {key : PyStr} {v w : Json}
      (h : Rewrites Φ v w) :
      Rewrites Φ (.obj (before ++ (key, v) :: after)) (.obj (before ++ (key, w) :: after))
  | item {before after : List Json} {v w : Json} (h : Rewrites Φ v w) :
      Rewrites Φ (.list (before ++ v :: after)) (.list (before ++ w :: after))

/-- The same, on the members of an object. -/
structure RewritesMembers (Φ : PyStr → Json → Json → Prop) (xs ys : List (PyStr × Json)) :
    Prop where
  place : ∃ before key v w after, xs = before ++ (key, v) :: after ∧
    ys = before ++ (key, w) :: after ∧ (Φ key v w ∨ Rewrites Φ v w)

theorem RewritesMembers.intro {before after : List (PyStr × Json)} {key : PyStr} {v w : Json}
    (h : Φ key v w ∨ Rewrites Φ v w) :
    RewritesMembers Φ (before ++ (key, v) :: after) (before ++ (key, w) :: after) :=
  ⟨before, key, v, w, after, rfl, rfl, h⟩

theorem RewritesMembers.rewrites {xs ys : List (PyStr × Json)} (h : RewritesMembers Φ xs ys) :
    Rewrites Φ (.obj xs) (.obj ys) := by
  rcases h.place with ⟨before, key, v, w, after, rfl, rfl, h | h⟩
  · exact .here h
  · exact .member h

/-- A step replaces a member of an object or an item of a list. -/
theorem Rewrites.inv {a b : Json} (h : Rewrites Φ a b) :
    (∃ xs ys, a = .obj xs ∧ b = .obj ys ∧ RewritesMembers Φ xs ys) ∨
      ∃ before v w after, a = .list (before ++ v :: after) ∧ b = .list (before ++ w :: after) ∧
        Rewrites Φ v w := by
  cases h with
  | here h => exact Or.inl ⟨_, _, rfl, rfl, .intro (Or.inl h)⟩
  | member h => exact Or.inl ⟨_, _, rfl, rfl, .intro (Or.inr h)⟩
  | item h => exact Or.inr ⟨_, _, _, _, rfl, rfl, h⟩

/-- The steps of a weaker relation. -/
theorem Rewrites.mono (hΦ : ∀ key v w, Φ key v w → Ψ key v w) {a b : Json} (h : Rewrites Φ a b) :
    Rewrites Ψ a b := by
  induction h with
  | here h => exact .here (hΦ _ _ _ h)
  | member _ ih => exact .member ih
  | item _ ih => exact .item ih

/-- A step back. -/
theorem Rewrites.flip {a b : Json} (h : Rewrites Φ a b) :
    Rewrites (fun key v w => Φ key w v) b a := by
  induction h with
  | here h => exact .here h
  | member _ ih => exact .member ih
  | item _ ih => exact .item ih

theorem RewritesMembers.flip {xs ys : List (PyStr × Json)} (h : RewritesMembers Φ xs ys) :
    RewritesMembers (fun key v w => Φ key w v) ys xs := by
  rcases h.place with ⟨before, key, v, w, after, rfl, rfl, hplace⟩
  exact .intro (hplace.imp id Rewrites.flip)

/-- Where nothing is replaced by itself, a step changes the value. -/
theorem Rewrites.ne (hΦ : ∀ key v w, Φ key v w → v ≠ w) {a b : Json} (h : Rewrites Φ a b) :
    a ≠ b := by
  induction h with
  | here h =>
      intro heq
      simp only [obj.injEq, List.append_cancel_left_eq, List.cons.injEq, Prod.mk.injEq, true_and,
        and_true] at heq
      exact hΦ _ _ _ h heq
  | member _ ih =>
      intro heq
      simp only [obj.injEq, List.append_cancel_left_eq, List.cons.injEq, Prod.mk.injEq, true_and,
        and_true] at heq
      exact ih heq
  | item _ ih =>
      intro heq
      simp only [list.injEq, List.append_cancel_left_eq, List.cons.injEq, and_true] at heq
      exact ih heq

/-- Where values are replaced by themselves only, a step changes nothing. -/
theorem Rewrites.eq (hΦ : ∀ key v w, Φ key v w → v = w) {a b : Json} (h : Rewrites Φ a b) :
    a = b := by
  induction h with
  | here h => rw [hΦ _ _ _ h]
  | member _ ih => rw [ih]
  | item _ ih => rw [ih]

theorem RewritesMembers.append_left {ys zs : List (PyStr × Json)} (h : RewritesMembers Φ ys zs)
    (xs : List (PyStr × Json)) : RewritesMembers Φ (xs ++ ys) (xs ++ zs) := by
  rcases h.place with ⟨before, key, v, w, after, rfl, rfl, hplace⟩
  exact ⟨xs ++ before, key, v, w, after, by simp, by simp, hplace⟩

theorem RewritesMembers.append_right {xs ys : List (PyStr × Json)} (h : RewritesMembers Φ xs ys)
    (zs : List (PyStr × Json)) : RewritesMembers Φ (xs ++ zs) (ys ++ zs) := by
  rcases h.place with ⟨before, key, v, w, after, rfl, rfl, hplace⟩
  exact ⟨before, key, v, w, after ++ zs, by simp, by simp, hplace⟩

/-- A step on members is a step on one part of them. -/
theorem RewritesMembers.append {xs ys zs : List (PyStr × Json)}
    (h : RewritesMembers Φ (xs ++ ys) zs) :
    (∃ xs', RewritesMembers Φ xs xs' ∧ zs = xs' ++ ys) ∨
      ∃ ys', RewritesMembers Φ ys ys' ∧ zs = xs ++ ys' := by
  rcases h.place with ⟨before, key, v, w, after, heq, rfl, hplace⟩
  rcases List.append_eq_append_iff.mp heq with ⟨rest, rfl, hys⟩ | ⟨rest, rfl, hrest⟩
  · refine Or.inr ⟨rest ++ (key, w) :: after, ?_, by rw [List.append_assoc]⟩
    rw [hys]
    exact .intro hplace
  · cases rest with
    | nil =>
        refine Or.inr ⟨(key, w) :: after, ?_, by rw [List.append_nil]⟩
        exact ⟨[], key, v, w, after, hrest.symm, rfl, hplace⟩
    | cons m rest =>
        rw [List.cons_append, List.cons.injEq] at hrest
        rcases hrest with ⟨rfl, rfl⟩
        exact Or.inl ⟨_, .intro hplace, by rw [List.append_assoc, List.cons_append]⟩

section Outside

/-- Equal, or two containers of one kind that are empty together. -/
inductive SameOutside : Json → Json → Prop where
  | refl (v : Json) : SameOutside v v
  | list {xs ys : List Json} (h : xs.isEmpty = ys.isEmpty) : SameOutside (.list xs) (.list ys)
  | obj {xs ys : List (PyStr × Json)} (h : xs.isEmpty = ys.isEmpty) :
      SameOutside (.obj xs) (.obj ys)

theorem SameOutside.symm {v w : Json} (h : SameOutside v w) : SameOutside w v := by
  cases h with
  | refl v => exact .refl v
  | list h => exact .list h.symm
  | obj h => exact .obj h.symm

/-- What treats all lists alike and all objects alike sees scalars only. -/
theorem SameOutside.congr {γ : Type} (f : Json → γ) (hlist : ∀ xs ys, f (.list xs) = f (.list ys))
    (hobj : ∀ xs ys, f (.obj xs) = f (.obj ys)) {v w : Json} (h : SameOutside v w) : f v = f w := by
  cases h with
  | refl v => rfl
  | list h => exact hlist _ _
  | obj h => exact hobj _ _

/-- A step is inside of a container. -/
theorem Rewrites.sameOutside {a b : Json} (h : Rewrites Φ a b) : SameOutside a b := by
  cases h with
  | @here before => exact .obj (by cases before <;> rfl)
  | @member before => exact .obj (by cases before <;> rfl)
  | @item before => exact .list (by cases before <;> rfl)

end Outside

section Lookup

/-- What a step does to a lookup. -/
theorem RewritesMembers.lookup {xs ys : List (PyStr × Json)} (h : RewritesMembers Φ xs ys)
    (name : PyStr) :
    Dict.lookupL name xs = Dict.lookupL name ys ∨
      ∃ v w, Dict.lookupL name xs = some v ∧ Dict.lookupL name ys = some w ∧
        (Φ name v w ∨ Rewrites Φ v w) := by
  rcases h.place with ⟨before, key, v, w, after, rfl, rfl, hplace⟩
  clear h
  induction before with
  | nil =>
      by_cases hkey : key = name
      · subst hkey
        exact Or.inr ⟨v, w, by simp, by simp, hplace⟩
      · exact Or.inl (by simp [Dict.lookupL, hkey])
  | cons m rest ih =>
      rcases m with ⟨key', v'⟩
      by_cases hkey : key' = name
      · exact Or.inl (by simp [hkey])
      · simpa [Dict.lookupL, hkey] using ih

end Lookup

end Json

end STS2RL
