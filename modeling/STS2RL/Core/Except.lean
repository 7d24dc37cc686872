import Mathlib

/-!
# Success of Fallible Computations

Two checks that raise different texts may still accept the same inputs with the
same results. `Except.toOption` forgets the exception, and the lemmas here push
it through the operations fallible code is written with, so that acceptance is
compared by rewriting.

## Main definitions

* `PyException`: An exception, by its type name and message.
* `Except.Agree`: Two computations that both raise, or answer alike.

## Theorems

* `toOption_bind`: A sequence succeeds with what both halves give.
* `toOption_eq_some`: Success, as an equation of the computation itself.
* `isSome_bind_pure`: A pure last step cannot fail.
* `bind_eq_ok`, `map_eq_ok`: What a successful sequence did.
* `map_eq_map_of`: Agreement after a projection is agreement after another.
* `Agree.bind`, `Agree.mapM_perm`: Agreement is carried along a sequence.
-/

namespace STS2RL

/-- An exception, by its type name and message. -/
structure PyException where
  typeName : String
  message : String
  deriving DecidableEq, Repr

/-- A `ValueError`. -/
def PyException.valueError (message : String) : PyException := ⟨"ValueError", message⟩

/-- A `RuntimeError`. -/
def PyException.runtimeError (message : String) : PyException := ⟨"RuntimeError", message⟩

namespace Except

variable {ε α β : Type}

/-- A sequence succeeds with what both halves give. -/
theorem toOption_bind (x : Except ε α) (f : α → Except ε β) :
    (x >>= f).toOption = x.toOption.bind (fun a => (f a).toOption) := by
  cases x <;> rfl

@[simp]
theorem toOption_pure (a : α) : (pure a : Except ε α).toOption = some a := rfl

@[simp]
theorem toOption_throw (e : ε) : (throw e : Except ε α).toOption = none := rfl

theorem toOption_eq_some (x : Except ε α) (a : α) : x.toOption = some a ↔ x = .ok a := by
  cases x <;> simp [Except.toOption]

theorem isSome_bind_pure (x : Except ε α) (f : α → β) :
    (x >>= fun a => pure (f a)).toOption.isSome = x.toOption.isSome := by
  cases x <;> rfl

@[simp]
theorem throw_ne_ok (e : ε) (a : α) : (throw e : Except ε α) ≠ .ok a := by
  intro h
  cases h

@[simp]
theorem pure_eq_ok (a b : α) : (pure a : Except ε α) = .ok b ↔ a = b :=
  ⟨fun h => by cases h; rfl, fun h => by rw [h]; rfl⟩

/-- What follows a result. -/
theorem ok_bind (a : α) (f : α → Except ε β) : (Except.ok a >>= f) = f a := rfl

/-- What a successful sequence did. -/
theorem bind_eq_ok (x : Except ε α) (f : α → Except ε β) (b : β) :
    x >>= f = .ok b ↔ ∃ a, x = .ok a ∧ f a = .ok b := by
  cases x with
  | error e =>
      refine ⟨fun h => ?_, fun ⟨a, ha, _⟩ => ?_⟩
      · cases h
      · cases ha
  | ok a =>
      refine ⟨fun h => ⟨a, rfl, h⟩, fun ⟨a', ha, h⟩ => ?_⟩
      cases ha
      exact h

/-- What the source of a successful result was. -/
theorem map_eq_ok (x : Except ε α) (f : α → β) (b : β) :
    x.map f = .ok b ↔ ∃ a, x = .ok a ∧ f a = b := by
  cases x with
  | error e => simp [Except.map]
  | ok a => simp [Except.map]

/-- What the last step answers, whatever the first one gave. -/
theorem of_bind_ok {x : Except ε α} {f : α → Except ε β} {P : β → Prop}
    (h : ∀ a b, f a = .ok b → P b) : ∀ b, (x >>= f) = .ok b → P b := by
  intro b hb
  rcases (bind_eq_ok x f b).mp hb with ⟨a, -, hfa⟩
  exact h a b hfa

theorem map_map {γ : Type} (x : Except ε α) (f : α → β) (g : β → γ) :
    (x.map f).map g = x.map fun a => g (f a) := by
  cases x <;> rfl

theorem eq_error_of_map {x : Except ε α} {f : α → β} {e : ε} (h : x.map f = .error e) :
    x = .error e := by
  cases x with
  | ok a => cases h
  | error _ =>
      cases h
      rfl

/-- Computations that agree after one projection agree after another that is decided by it. -/
theorem map_eq_map_of {γ δ : Type} {x y : Except ε α} {f : α → γ} {g g' : α → δ}
    (h : x.map f = y.map f)
    (hg : ∀ a b, x = .ok a → y = .ok b → f a = f b → g a = g' b) : x.map g = y.map g' := by
  cases x with
  | error e =>
      cases y with
      | error e' =>
          cases h
          rfl
      | ok b => cases h
  | ok a =>
      cases y with
      | error e' => cases h
      | ok b => exact congrArg Except.ok (hg a b rfl rfl (Except.ok.inj h))

/-- What holds between each argument and its result holds between the lists. -/
theorem mapM_map_eq {γ : Type} (f : α → Except ε β) (g : β → γ) (h : α → γ) (xs : List α)
    (ys : List β) (hok : xs.mapM f = .ok ys) (hf : ∀ x y, f x = .ok y → g y = h x) :
    ys.map g = xs.map h := by
  induction xs generalizing ys with
  | nil =>
      cases hok
      rfl
  | cons x xs ih =>
      rw [List.mapM_cons, bind_eq_ok] at hok
      obtain ⟨y, hy, hok⟩ := hok
      rw [bind_eq_ok] at hok
      obtain ⟨ys', hys, hok⟩ := hok
      cases hok
      rw [List.map_cons, List.map_cons, hf x y hy, ih ys' hys]

/-- A list in two parts gives the results of both. -/
theorem mapM_append_eq_ok (f : α → Except ε β) (xs ys : List α) (zs : List β) :
    (xs ++ ys).mapM f = .ok zs ↔
      ∃ us vs, xs.mapM f = .ok us ∧ ys.mapM f = .ok vs ∧ zs = us ++ vs := by
  induction xs generalizing zs with
  | nil =>
      constructor
      · intro h
        exact ⟨[], zs, rfl, h, rfl⟩
      · rintro ⟨us, vs, hus, hvs, rfl⟩
        cases hus
        exact hvs
  | cons x xs ih =>
      rw [List.cons_append, List.mapM_cons, List.mapM_cons, bind_eq_ok]
      constructor
      · rintro ⟨y, hy, hrest⟩
        rw [bind_eq_ok] at hrest
        rcases hrest with ⟨ws, hws, heq⟩
        cases heq
        rcases (ih ws).mp hws with ⟨us, vs, hus, hvs, rfl⟩
        exact ⟨y :: us, vs, by rw [hy, hus]; rfl, hvs, rfl⟩
      · rintro ⟨us, vs, hus, hvs, rfl⟩
        rw [bind_eq_ok] at hus
        rcases hus with ⟨y, hy, hus⟩
        rw [bind_eq_ok] at hus
        rcases hus with ⟨us', hus', heq⟩
        cases heq
        refine ⟨y, hy, ?_⟩
        rw [(ih (us' ++ vs)).mpr ⟨us', vs, hus', hvs, rfl⟩]
        rfl

/-- A permuted list gives the permuted results. -/
theorem mapM_perm (f : α → Except ε β) {xs ys : List α} (h : xs.Perm ys) :
    ∀ zs, xs.mapM f = .ok zs → ∃ ws, ys.mapM f = .ok ws ∧ zs.Perm ws := by
  induction h with
  | nil => exact fun zs hzs => ⟨zs, hzs, .refl _⟩
  | cons x _ ih =>
      intro zs hzs
      rw [List.mapM_cons, bind_eq_ok] at hzs
      rcases hzs with ⟨y, hy, hzs⟩
      rw [bind_eq_ok] at hzs
      rcases hzs with ⟨zs', hzs', heq⟩
      cases heq
      rcases ih zs' hzs' with ⟨ws, hws, hperm⟩
      exact ⟨y :: ws, by rw [List.mapM_cons, hy, hws]; rfl, hperm.cons y⟩
  -- The swap is where the two orders differ: both calls succeeded, so their order does not
  -- matter.
  | swap x x' xs =>
      intro zs hzs
      rw [List.mapM_cons, bind_eq_ok] at hzs
      rcases hzs with ⟨y', hy', hzs⟩
      rw [List.mapM_cons, bind_eq_ok] at hzs
      rcases hzs with ⟨zs', hzs', heq⟩
      cases heq
      rw [bind_eq_ok] at hzs'
      rcases hzs' with ⟨y, hy, hzs'⟩
      rw [bind_eq_ok] at hzs'
      rcases hzs' with ⟨zs'', hzs'', heq⟩
      cases heq
      exact ⟨y :: y' :: zs'', by rw [List.mapM_cons, hy, List.mapM_cons, hy', hzs'']; rfl,
        .swap y y' zs''⟩
  | trans _ _ ih ih' =>
      intro zs hzs
      rcases ih zs hzs with ⟨ws, hws, hperm⟩
      rcases ih' ws hws with ⟨us, hus, hperm'⟩
      exact ⟨us, hus, hperm.trans hperm'⟩

/-- Every result comes from an argument. -/
theorem exists_of_mem_mapM (f : α → Except ε β) (xs : List α) (ys : List β)
    (hok : xs.mapM f = .ok ys) : ∀ y ∈ ys, ∃ x ∈ xs, f x = .ok y := by
  induction xs generalizing ys with
  | nil =>
      cases hok
      intro y hy
      cases hy
  | cons x xs ih =>
      rw [List.mapM_cons, bind_eq_ok] at hok
      obtain ⟨y, hy, hok⟩ := hok
      rw [bind_eq_ok] at hok
      obtain ⟨ys', hys, hok⟩ := hok
      cases hok
      intro z hz
      rcases List.mem_cons.mp hz with heq | hmem
      · exact ⟨x, List.mem_cons_self, heq ▸ hy⟩
      · obtain ⟨x', hx', hz⟩ := ih ys' hys z hmem
        exact ⟨x', List.mem_cons_of_mem x hx', hz⟩

/-- Every argument gives one of the results. -/
theorem ok_of_mem_mapM (f : α → Except ε β) (xs : List α) (ys : List β)
    (hok : xs.mapM f = .ok ys) : ∀ x ∈ xs, ∃ y ∈ ys, f x = .ok y := by
  induction xs generalizing ys with
  | nil =>
      intro x hx
      cases hx
  | cons x xs ih =>
      rw [List.mapM_cons, bind_eq_ok] at hok
      rcases hok with ⟨y, hy, hok⟩
      rw [bind_eq_ok] at hok
      rcases hok with ⟨ys', hys, hok⟩
      cases hok
      intro z hz
      rcases List.mem_cons.mp hz with rfl | hmem
      · exact ⟨y, List.mem_cons_self, hy⟩
      · rcases ih ys' hys z hmem with ⟨w, hw, hzw⟩
        exact ⟨w, List.mem_cons_of_mem y hw, hzw⟩

theorem length_of_mapM {f : α → Except ε β} {xs : List α} {ys : List β}
    (hok : xs.mapM f = .ok ys) : ys.length = xs.length := by
  induction xs generalizing ys with
  | nil =>
      cases hok
      rfl
  | cons x xs ih =>
      rw [List.mapM_cons, bind_eq_ok] at hok
      rcases hok with ⟨y, -, hok⟩
      rcases (bind_eq_ok _ _ _).mp hok with ⟨ys', hys, hpure⟩
      cases hpure
      rw [List.length_cons, List.length_cons, ih hys]

/-- A property of the results is one of the arguments. -/
theorem forall_mapM_iff {f : α → Except ε β} {P : β → Prop} {Q : α → Prop} {xs : List α}
    {ys : List β} (hok : xs.mapM f = .ok ys)
    (hiff : ∀ x ∈ xs, ∀ y, f x = .ok y → (P y ↔ Q x)) : (∀ y ∈ ys, P y) ↔ ∀ x ∈ xs, Q x := by
  constructor
  · intro h x hx
    rcases ok_of_mem_mapM f xs ys hok x hx with ⟨y, hy, hxy⟩
    exact (hiff x hx y hxy).mp (h y hy)
  · intro h y hy
    rcases exists_of_mem_mapM f xs ys hok y hy with ⟨x, hx, hxy⟩
    exact (hiff x hx y hxy).mpr (h x hx)

/-- What is found in one of the resulting lists is found for one of the arguments. -/
theorem exists_mem_flatten_mapM {f : α → Except ε (List β)} {P : β → Prop} {Q : α → Prop}
    {xs : List α} {yss : List (List β)} (hok : xs.mapM f = .ok yss)
    (hiff : ∀ x ∈ xs, ∀ ys, f x = .ok ys → ((∃ y ∈ ys, P y) ↔ Q x)) :
    (∃ y ∈ yss.flatten, P y) ↔ ∃ x ∈ xs, Q x := by
  constructor
  · rintro ⟨y, hy, hP⟩
    rcases List.mem_flatten.mp hy with ⟨ys, hys, hmem⟩
    rcases exists_of_mem_mapM f xs yss hok ys hys with ⟨x, hx, hxys⟩
    exact ⟨x, hx, (hiff x hx ys hxys).mp ⟨y, hmem, hP⟩⟩
  · rintro ⟨x, hx, hQ⟩
    rcases ok_of_mem_mapM f xs yss hok x hx with ⟨ys, hys, hxys⟩
    rcases (hiff x hx ys hxys).mpr hQ with ⟨y, hmem, hP⟩
    exact ⟨y, List.mem_flatten.mpr ⟨ys, hys, hmem⟩, hP⟩

/-- A list of results that are their own results. -/
theorem mapM_self_iff (f : β → Except ε β) (ys : List β) :
    ys.mapM f = .ok ys ↔ ∀ y ∈ ys, f y = .ok y := by
  induction ys with
  | nil => exact ⟨fun _ _ hy => (nomatch hy), fun _ => rfl⟩
  | cons y ys ih =>
      rw [List.mapM_cons, bind_eq_ok, List.forall_mem_cons, ← ih]
      constructor
      · rintro ⟨z, hz, hrest⟩
        rcases (bind_eq_ok _ _ _).mp hrest with ⟨zs, hzs, hpure⟩
        cases hpure
        exact ⟨hz, hzs⟩
      · exact fun h => ⟨y, h.1, (bind_eq_ok _ _ _).mpr ⟨ys, h.2, rfl⟩⟩

theorem mapM_isOk (f : α → Except ε β) (xs : List α) (hf : ∀ x ∈ xs, ∃ y, f x = .ok y) :
    ∃ ys, xs.mapM f = .ok ys := by
  induction xs with
  | nil => exact ⟨[], rfl⟩
  | cons x xs ih =>
      obtain ⟨y, hy⟩ := hf x List.mem_cons_self
      obtain ⟨ys, hys⟩ := ih fun z hz => hf z (List.mem_cons_of_mem x hz)
      refine ⟨y :: ys, ?_⟩
      rw [List.mapM_cons, hy, hys]
      rfl

/-- Results with a property, one for each argument. -/
theorem mapM_forall₂ (f : α → Except ε β) (P : α → β → Prop) (xs : List α)
    (hf : ∀ x ∈ xs, ∃ y, f x = .ok y ∧ P x y) :
    ∃ ys, xs.mapM f = .ok ys ∧ List.Forall₂ P xs ys := by
  induction xs with
  | nil => exact ⟨[], rfl, .nil⟩
  | cons x xs ih =>
      obtain ⟨y, hy, hP⟩ := hf x List.mem_cons_self
      obtain ⟨ys, hys, hPs⟩ := ih fun z hz => hf z (List.mem_cons_of_mem x hz)
      refine ⟨y :: ys, ?_, .cons hP hPs⟩
      rw [List.mapM_cons, hy, hys]
      rfl

/-- A computation that succeeds at every position succeeds on the list. -/
theorem mapM_eq_ok_range (f : α → Except ε β) (xs : List α) (r : Nat → β)
    (hf : ∀ i x, xs[i]? = some x → f x = .ok (r i)) :
    xs.mapM f = .ok ((List.range xs.length).map r) := by
  induction xs generalizing r with
  | nil => rfl
  | cons x xs ih =>
      have hhead : f x = .ok (r 0) := hf 0 x rfl
      have htail := ih (fun i => r (i + 1)) fun i y hy => hf (i + 1) y hy
      rw [List.mapM_cons, hhead, htail, List.length_cons, List.range_succ_eq_map, List.map_cons,
        List.map_map]
      rfl

/-- Both raise, whatever, or both answer and the answers are alike. -/
def Agree (R : α → β → Prop) : Except ε α → Except ε β → Prop
  | .ok a, .ok b => R a b
  | .error _, .error _ => True
  | _, _ => False

namespace Agree

variable {γ δ : Type} {R : α → β → Prop} {S : γ → δ → Prop}

theorem refl {R : α → α → Prop} (hrefl : ∀ a, R a a) (x : Except ε α) : Agree R x x := by
  cases x with
  | error e => trivial
  | ok a => exact hrefl a

theorem pure {a : α} {b : β} (h : R a b) : Agree R (Pure.pure a : Except ε α) (Pure.pure b) := h

/-- What follows two computations that agree need only agree on answers alike. -/
theorem bind {x : Except ε α} {y : Except ε β} {f : α → Except ε γ} {g : β → Except ε δ}
    (h : Agree R x y) (hf : ∀ a b, R a b → Agree S (f a) (g b)) :
    Agree S (x >>= f) (y >>= g) := by
  cases x with
  | error e =>
      cases y with
      | error e' => trivial
      | ok b => exact h.elim
  | ok a =>
      cases y with
      | error e' => exact h.elim
      | ok b => exact hf a b h

/-- What follows the same computation. -/
theorem bind_same (x : Except ε α) {f : α → Except ε γ} {g : α → Except ε δ}
    (hf : ∀ a, Agree S (f a) (g a)) : Agree S (x >>= f) (x >>= g) :=
  (refl Eq.refl x).bind fun a b hab => hab ▸ hf a

theorem map {x : Except ε α} {y : Except ε β} {f : α → γ} {g : β → δ} (h : Agree R x y)
    (hf : ∀ a b, R a b → S (f a) (g b)) : Agree S (x.map f) (y.map g) := by
  cases x with
  | error e =>
      cases y with
      | error e' => trivial
      | ok b => exact h.elim
  | ok a =>
      cases y with
      | error e' => exact h.elim
      | ok b => exact hf a b h

/-- Permuted arguments give permuted results, or raise all the same. -/
theorem mapM_perm (f : α → Except ε β) {xs ys : List α} (h : xs.Perm ys) :
    Agree List.Perm (xs.mapM f) (ys.mapM f) := by
  cases hx : xs.mapM f with
  | ok zs =>
      rcases Except.mapM_perm f h zs hx with ⟨ws, hws, hperm⟩
      rw [hws]
      exact hperm
  | error e =>
      cases hy : ys.mapM f with
      | error e' => trivial
      | ok ws =>
          rcases Except.mapM_perm f h.symm ws hy with ⟨zs, hzs, -⟩
          rw [hx] at hzs
          cases hzs

/-- Arguments that are alike give results that are alike. -/
theorem mapM_forall₂ {f : α → Except ε γ} {g : β → Except ε δ} {xs : List α} {ys : List β}
    (h : List.Forall₂ R xs ys) (hf : ∀ a b, R a b → Agree S (f a) (g b)) :
    Agree (List.Forall₂ S) (xs.mapM f) (ys.mapM g) := by
  induction h with
  | nil => exact List.Forall₂.nil
  | cons hab _ ih =>
      rw [List.mapM_cons, List.mapM_cons]
      refine (hf _ _ hab).bind fun c d hcd => ih.bind fun cs ds hrest => ?_
      exact List.Forall₂.cons hcd hrest

end Agree

/-- Lists with the same results are compared item by item. -/
theorem forall₂_of_mapM_eq {f : α → Except ε β} {xs ys : List α} {zs : List β}
    (hx : xs.mapM f = .ok zs) (hy : ys.mapM f = .ok zs) :
    List.Forall₂ (fun x y => ∃ z, f x = .ok z ∧ f y = .ok z) xs ys := by
  induction xs generalizing ys zs with
  | nil =>
      cases hx
      cases ys with
      | nil => exact .nil
      | cons y ys =>
          have hlength := length_of_mapM hy
          cases hlength
  | cons x xs ih =>
      rw [List.mapM_cons, bind_eq_ok] at hx
      rcases hx with ⟨z, hz, hx⟩
      rw [bind_eq_ok] at hx
      rcases hx with ⟨zs, hzs, heq⟩
      cases heq
      cases ys with
      | nil =>
          have hlength := length_of_mapM hy
          cases hlength
      | cons y ys =>
          rw [List.mapM_cons, bind_eq_ok] at hy
          rcases hy with ⟨w, hw, hy⟩
          rw [bind_eq_ok] at hy
          rcases hy with ⟨ws, hws, heq⟩
          cases heq
          exact .cons ⟨z, hz, hw⟩ (ih hzs hws)

end Except

end STS2RL
