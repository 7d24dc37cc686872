import Mathlib

/-!
# Programs with a State and Exceptions

A program that changes a state and may raise. The state is not put back when it
raises: what was changed stays changed, which is what clean-up code is about.

A `Triple` says where a program can end, by a return and by an exception, from
where it starts. The rules follow the ways programs are put together, so a
statement about a program is proved from statements about its parts. `Keeps` is
the special case of an invariant that holds at both ends.

## Main definitions

* `Act`: A program.
* `Act.raiseIf`, `Act.onlyIf`: A condition with nothing else to do.
* `Act.onError`, `Act.ensuring`: Clean-up when a program raises, and always.
* `Act.forEach`, `Act.collect`: A program for each item of a list.
* `Act.zoom`: A program on a part of the state.
* `Act.Triple`, `Act.Keeps`: Where a program ends, and what it leaves true.
* `Act.Fails`: A program that never returns.
* `Act.Agrees`: Two programs with the same outcomes.

## Theorems

* `Triple.bind`, `Triple.onError`, `Triple.ensuring`, `Triple.forEach`: The rules.
* `Triple.conseq`: A weaker statement.
* `forEach_append`: A list is gone through in two parts.
-/

namespace STS2RL

/-- A program on a state: a value or an exception, and the state it leaves. -/
def Act (ε σ α : Type) : Type := σ → Except ε α × σ

namespace Act

variable {ε σ τ α β ι : Type}

instance : Monad (Act ε σ) where
  pure a := fun s => (.ok a, s)
  bind m f := fun s =>
    match m s with
    | (.ok a, s') => f a s'
    | (.error e, s') => (.error e, s')

/-- Fails, and leaves the state. -/
def raise (e : ε) : Act ε σ α := fun s => (.error e, s)

/-- The state. -/
def get : Act ε σ σ := fun s => (.ok s, s)

/-- Changes the state. -/
def modify (f : σ → σ) : Act ε σ Unit := fun s => (.ok (), f s)

/-- A computation that does not look at the state. -/
def ofExcept (x : Except ε α) : Act ε σ α := fun s => (x, s)

/-- `if condition: raise`. -/
def raiseIf (condition : Prop) [Decidable condition] (e : ε) : Act ε σ Unit :=
  if condition then raise e else pure ()

/-- `if condition: program`. -/
def onlyIf (condition : Prop) [Decidable condition] (m : Act ε σ Unit) : Act ε σ Unit :=
  if condition then m else pure ()

/-- Run a program on a part of the state. -/
def zoom (part : σ → τ) (put : τ → σ → σ) (m : Act ε τ α) : Act ε σ α := fun s =>
  let (outcome, t) := m (part s)
  (outcome, put t s)

/-- `except: handler; raise`. What the handler raises replaces the exception. -/
def onError (m : Act ε σ α) (handler : ε → Act ε σ Unit) : Act ε σ α := fun s =>
  match m s with
  | (.ok a, s') => (.ok a, s')
  | (.error e, s') =>
      match handler e s' with
      | (.ok (), s'') => (.error e, s'')
      | (.error e', s'') => (.error e', s'')

/-- `except: handler`, where the handler returns in place of the program. -/
def catching (m : Act ε σ α) (handler : ε → Act ε σ α) : Act ε σ α := fun s =>
  match m s with
  | (.ok a, s') => (.ok a, s')
  | (.error e, s') => handler e s'

/-- `finally: cleanup`. What the clean-up raises replaces what the program came to. -/
def ensuring (m : Act ε σ α) (cleanup : Act ε σ Unit) : Act ε σ α := fun s =>
  match m s with
  | (outcome, s') =>
      match cleanup s' with
      | (.ok (), s'') => (outcome, s'')
      | (.error e, s'') => (.error e, s'')

/-- A program for each item of a list, in order. -/
def forEach (f : ι → Act ε σ Unit) : List ι → Act ε σ Unit
  | [] => pure ()
  | i :: rest => do
      f i
      forEach f rest

/-- A program for each item of a list, in order, with what they return. -/
def collect (f : ι → Act ε σ α) : List ι → Act ε σ (List α)
  | [] => pure []
  | i :: rest => do
      let a ← f i
      let as ← collect f rest
      pure (a :: as)

/-!
### Equations

How a program runs, one connective at a time.
-/

section Equations

variable (s : σ)

@[simp]
theorem pure_apply (a : α) : (pure a : Act ε σ α) s = (.ok a, s) := rfl

theorem bind_apply (m : Act ε σ α) (f : α → Act ε σ β) :
    (m >>= f) s = match m s with
      | (.ok a, s') => f a s'
      | (.error e, s') => (.error e, s') := rfl

@[simp]
theorem raise_apply (e : ε) : (raise e : Act ε σ α) s = (.error e, s) := rfl

@[simp]
theorem get_apply : (get : Act ε σ σ) s = (.ok s, s) := rfl

@[simp]
theorem modify_apply (f : σ → σ) : (modify f : Act ε σ Unit) s = (.ok (), f s) := rfl

@[simp]
theorem ofExcept_apply (x : Except ε α) : (ofExcept x : Act ε σ α) s = (x, s) := rfl

/-- A program after one that returns. -/
theorem bind_of_ok {m : Act ε σ α} {f : α → Act ε σ β} {a : α} {s' : σ} (h : m s = (.ok a, s')) :
    (m >>= f) s = f a s' := by
  rw [bind_apply, h]

/-- A program after one that raises is not run. -/
theorem bind_of_error {m : Act ε σ α} {f : α → Act ε σ β} {e : ε} {s' : σ}
    (h : m s = (.error e, s')) : (m >>= f) s = (.error e, s') := by
  rw [bind_apply, h]

/-- The handler of a program that returns is not run. -/
theorem onError_of_ok {m : Act ε σ α} {handler : ε → Act ε σ Unit} {a : α} {s' : σ}
    (h : m s = (.ok a, s')) : m.onError handler s = (.ok a, s') := by
  unfold onError
  rw [h]

/-- That of a program that raises is, and something is raised still. -/
theorem onError_of_error {m : Act ε σ α} {handler : ε → Act ε σ Unit} {e : ε} {s' : σ}
    (h : m s = (.error e, s')) : ∃ e', m.onError handler s = (.error e', (handler e s').2) := by
  unfold onError
  rw [h]
  dsimp only
  rcases handler e s' with ⟨_ | ⟨⟨⟩⟩, s''⟩
  · exact ⟨_, rfl⟩
  · exact ⟨e, rfl⟩

/-- Programs with the same parts are the same. -/
theorem bind_congr {m m' : Act ε σ α} {f f' : α → Act ε σ β} {s : σ} (hm : m s = m' s)
    (hf : ∀ a t, f a t = f' a t) : (m >>= f) s = (m' >>= f') s := by
  rw [bind_apply, bind_apply, hm]
  rcases m' s with ⟨_ | a, t⟩
  · rfl
  · exact hf a t

/-- What follows does not look at how it was come to. -/
theorem bind_congr_at {m m' : Act ε σ α} {f : α → Act ε σ β} {s t : σ} (h : m s = m' t) :
    (m >>= f) s = (m' >>= f) t := by
  rw [bind_apply, bind_apply, h]

/-- A program that returns has gone through its first part. -/
theorem of_bind_ok {m : Act ε σ α} {f : α → Act ε σ β} {s s' : σ} {b : β}
    (h : (m >>= f) s = (.ok b, s')) : ∃ a t, m s = (.ok a, t) ∧ f a t = (.ok b, s') := by
  rw [bind_apply] at h
  rcases hm : m s with ⟨_ | a, t⟩
  · rw [hm] at h
    cases h
  · rw [hm] at h
    exact ⟨a, t, rfl, h⟩

/-- A value that is returned leaves the state. -/
theorem of_ofExcept_ok {x : Except ε α} {s s' : σ} {a : α} (h : ofExcept x s = (.ok a, s')) :
    x = .ok a ∧ s' = s := by
  cases x with
  | error e => cases h
  | ok a' =>
      cases h
      exact ⟨rfl, rfl⟩

/-- A check that is passed leaves the state. -/
theorem of_raiseIf_ok {c : Prop} [Decidable c] {e : ε} {s s' : σ} {u : Unit}
    (h : raiseIf c e s = (.ok u, s')) : ¬ c ∧ s' = s := by
  unfold raiseIf at h
  split at h
  · cases h
  · rename_i hc
    cases h
    exact ⟨hc, rfl⟩

@[simp]
theorem get_bind (f : σ → Act ε σ β) : (get >>= f) s = f s s := rfl

@[simp]
theorem modify_bind (g : σ → σ) (f : Unit → Act ε σ β) : (modify g >>= f) s = f () (g s) := rfl

@[simp]
theorem pure_bind_apply (a : α) (f : α → Act ε σ β) : ((pure a : Act ε σ α) >>= f) s = f a s := rfl

@[simp]
theorem raise_bind (e : ε) (f : α → Act ε σ β) :
    ((raise e : Act ε σ α) >>= f) s = (.error e, s) := rfl

theorem map_apply (m : Act ε σ α) (f : α → β) : (f <$> m) s = ((m s).1.map f, (m s).2) := by
  refine show (m >>= fun a => pure (f a)) s = _ from ?_
  rw [bind_apply]
  generalize m s = ended
  rcases ended with ⟨outcome, s'⟩
  cases outcome <;> rfl

end Equations

/-- Where an outcome is: `Q` for a return, `E` for an exception. -/
def Ends (Q : α → σ → Prop) (E : ε → σ → Prop) : Except ε α × σ → Prop
  | (.ok a, s) => Q a s
  | (.error e, s) => E e s

/-- From `P`, a return ends in `Q` and an exception in `E`. -/
def Triple (P : σ → Prop) (m : Act ε σ α) (Q : α → σ → Prop) (E : ε → σ → Prop) : Prop :=
  ∀ s, P s → Ends Q E (m s)

/-- An invariant, which an exception does not break either. -/
def Keeps (I : σ → Prop) (m : Act ε σ α) : Prop := Triple I m (fun _ => I) fun _ => I

/-!
### Rules

A triple says what holds after a program that returns and after one that raises. One rule
for each connective.
-/

section Rules

variable {P P' : σ → Prop} {Q Q' : α → σ → Prop} {R : β → σ → Prop} {E E' F : ε → σ → Prop}

/-- A weaker statement. -/
theorem Triple.conseq {m : Act ε σ α} (h : Triple P m Q E) (hP : ∀ s, P' s → P s)
    (hQ : ∀ a s, Q a s → Q' a s) (hE : ∀ e s, E e s → E' e s) : Triple P' m Q' E' := by
  intro s hs
  have hends := h s (hP s hs)
  generalize m s = ended at hends ⊢
  rcases ended with ⟨outcome, s'⟩
  cases outcome with
  | ok a => exact hQ a s' hends
  | error e => exact hE e s' hends

/-- Where a program ends when nothing is asked. -/
theorem Triple.anywhere (m : Act ε σ α) :
    Triple (fun _ => True) m (fun _ _ => True) fun _ _ => True := by
  intro s _
  generalize m s = ended
  rcases ended with ⟨outcome, s'⟩
  cases outcome <;> trivial

/-- Two statements about one program. -/
theorem Triple.and {m : Act ε σ α} (h : Triple P m Q E) (h' : Triple P' m Q' E') :
    Triple (fun s => P s ∧ P' s) m (fun a s => Q a s ∧ Q' a s) fun e s => E e s ∧ E' e s := by
  intro s hs
  have hends := h s hs.1
  have hends' := h' s hs.2
  generalize m s = ended at hends hends' ⊢
  rcases ended with ⟨outcome, s'⟩
  cases outcome <;> exact ⟨hends, hends'⟩

theorem Triple.pure {a : α} (h : ∀ s, P s → Q a s) : Triple P (pure a : Act ε σ α) Q E := h

theorem Triple.raise {e : ε} (h : ∀ s, P s → E e s) : Triple P (raise e : Act ε σ α) Q E := h

theorem Triple.modify {f : σ → σ} {Q : Unit → σ → Prop} (h : ∀ s, P s → Q () (f s)) :
    Triple P (modify f : Act ε σ Unit) Q E := h

theorem Triple.get {Q : σ → σ → Prop} (h : ∀ s, P s → Q s s) :
    Triple P (get : Act ε σ σ) Q E := h

theorem Triple.ofExcept {x : Except ε α} (h : ∀ s a, P s → x = .ok a → Q a s)
    (herror : ∀ s e, P s → x = .error e → E e s) : Triple P (ofExcept x) Q E := by
  intro s hs
  cases x with
  | ok a => exact h s a hs rfl
  | error e => exact herror s e hs rfl

theorem Triple.raiseIf {c : Prop} [Decidable c] {e : ε} {Q : Unit → σ → Prop}
    (h : ∀ s, P s → ¬ c → Q () s) (herror : ∀ s, P s → c → E e s) :
    Triple P (raiseIf c e : Act ε σ Unit) Q E := by
  intro s hs
  unfold Act.raiseIf
  by_cases hc : c
  · rw [if_pos hc]
    exact herror s hs hc
  · rw [if_neg hc]
    exact h s hs hc

theorem Triple.bind {m : Act ε σ α} {f : α → Act ε σ β} (hm : Triple P m Q E)
    (hf : ∀ a, Triple (Q a) (f a) R E) : Triple P (m >>= f) R E := by
  intro s hs
  have hends := hm s hs
  rw [bind_apply]
  generalize m s = ended at hends ⊢
  rcases ended with ⟨outcome, s'⟩
  cases outcome with
  | ok a => exact hf a s' hends
  | error e => exact hends

/-- Reading a state that is given. -/
theorem Triple.get_bind {s₀ : σ} {f : σ → Act ε σ β} (h : Triple (fun s => s = s₀) (f s₀) R E) :
    Triple (fun s => s = s₀) (Act.get >>= f) R E := by
  rintro s rfl
  exact h s rfl

/-- A handler that passes the error on runs after the error, and its own error is passed on
instead. -/
theorem Triple.onError {m : Act ε σ α} {handler : ε → Act ε σ Unit} (hm : Triple P m Q E)
    (hh : ∀ e, Triple (E e) (handler e) (fun _ => F e) F) : Triple P (m.onError handler) Q F := by
  intro s hs
  have hends := hm s hs
  unfold Act.onError
  generalize m s = ended at hends ⊢
  rcases ended with ⟨outcome, s'⟩
  cases outcome with
  | ok a => exact hends
  | error e =>
      have hhandled := hh e s' hends
      dsimp only
      generalize handler e s' = ended at hhandled ⊢
      rcases ended with ⟨handled, s''⟩
      cases handled <;> exact hhandled

theorem Triple.catching {m : Act ε σ α} {handler : ε → Act ε σ α} (hm : Triple P m Q E)
    (hh : ∀ e, Triple (E e) (handler e) Q F) : Triple P (m.catching handler) Q F := by
  intro s hs
  have hends := hm s hs
  unfold Act.catching
  generalize m s = ended at hends ⊢
  rcases ended with ⟨outcome, s'⟩
  cases outcome with
  | ok a => exact hends
  | error e => exact hh e s' hends

/-- A clean-up runs after both, and its own error comes first. -/
theorem Triple.ensuring {m : Act ε σ α} {cleanup : Act ε σ Unit} (hm : Triple P m Q E)
    (hok : ∀ a, Triple (Q a) cleanup (fun _ => Q' a) F)
    (herror : ∀ e, Triple (E e) cleanup (fun _ => F e) F) : Triple P (m.ensuring cleanup) Q' F := by
  intro s hs
  have hends := hm s hs
  unfold Act.ensuring
  generalize m s = ended at hends ⊢
  rcases ended with ⟨outcome, s'⟩
  dsimp only
  cases outcome with
  | ok a =>
      have hcleaned := hok a s' hends
      generalize cleanup s' = ended at hcleaned ⊢
      rcases ended with ⟨cleaned, s''⟩
      cases cleaned <;> exact hcleaned
  | error e =>
      have hcleaned := herror e s' hends
      generalize cleanup s' = ended at hcleaned ⊢
      rcases ended with ⟨cleaned, s''⟩
      cases cleaned <;> exact hcleaned

/-- A statement about the items that are still to come, from one about one item. -/
theorem Triple.forEach {f : ι → Act ε σ Unit} {J : List ι → σ → Prop}
    (hf : ∀ i rest, Triple (J (i :: rest)) (f i) (fun _ => J rest) E) :
    ∀ items, Triple (J items) (forEach f items) (fun _ => J []) E
  | [] => fun _ hs => hs
  | i :: rest => (hf i rest).bind fun _ => Triple.forEach hf rest

/-- What each item comes to, where an invariant is kept. -/
theorem Triple.collect_of_mem {f : ι → Act ε σ α} {I : σ → Prop} {J : α → Prop} :
    ∀ items, (∀ i ∈ items, Triple I (f i) (fun a s => I s ∧ J a) fun _ => I) →
      Triple I (collect f items) (fun as s => I s ∧ ∀ a ∈ as, J a) fun _ => I
  | [], _ => fun _ hs => ⟨hs, fun _ ha => nomatch ha⟩
  | i :: rest, hf => by
      refine Triple.bind (hf i List.mem_cons_self) fun a => ?_
      rintro s ⟨hs, ha⟩
      refine Triple.bind (Triple.collect_of_mem rest fun j hj => hf j (List.mem_cons_of_mem i hj))
        (fun as => ?_) s hs
      rintro t ⟨ht, has⟩
      refine ⟨ht, fun b hb => ?_⟩
      rcases List.mem_cons.mp hb with rfl | hb
      · exact ha
      · exact has b hb

/-- A program on a part of the state is judged on that part, with the rest fixed. -/
theorem Triple.zoom {part : σ → τ} {put : τ → σ → σ} {m : Act ε τ α} {A : σ → τ → Prop}
    {B : σ → α → τ → Prop} {C : σ → ε → τ → Prop} (hm : ∀ s, P s → Triple (A s) m (B s) (C s))
    (hA : ∀ s, P s → A s (part s)) (hB : ∀ s a t, P s → B s a t → Q a (put t s))
    (hC : ∀ s e t, P s → C s e t → E e (put t s)) : Triple P (zoom part put m) Q E := by
  intro s hs
  have hends := hm s hs (part s) (hA s hs)
  unfold Act.zoom
  generalize m (part s) = ended at hends ⊢
  rcases ended with ⟨outcome, t⟩
  cases outcome with
  | ok a => exact hB s a t hs hends
  | error e => exact hC s e t hs hends

end Rules

/-!
### Invariants

Triples with one condition, before and after.
-/

section Invariants

variable {I : σ → Prop}

theorem Keeps.pure (a : α) : Keeps I (pure a : Act ε σ α) := fun _ hs => hs

theorem Keeps.raise (e : ε) : Keeps I (raise e : Act ε σ α) := fun _ hs => hs

theorem Keeps.get : Keeps I (get : Act ε σ σ) := fun _ hs => hs

theorem Keeps.ofExcept (x : Except ε α) : Keeps I (ofExcept x : Act ε σ α) := by
  intro s hs
  cases x <;> exact hs

theorem Keeps.modify {f : σ → σ} (h : ∀ s, I s → I (f s)) : Keeps I (modify f : Act ε σ Unit) := h

theorem Keeps.ite {c : Prop} [Decidable c] {m m' : Act ε σ α} (hm : c → Keeps I m)
    (hm' : ¬ c → Keeps I m') : Keeps I (if c then m else m') := by
  by_cases hc : c
  · rw [if_pos hc]
    exact hm hc
  · rw [if_neg hc]
    exact hm' hc

theorem Keeps.raiseIf (c : Prop) [Decidable c] (e : ε) :
    Keeps I (raiseIf c e : Act ε σ Unit) :=
  .ite (fun _ => .raise e) fun _ => .pure ()

theorem Keeps.onlyIf {c : Prop} [Decidable c] {m : Act ε σ Unit} (hm : c → Keeps I m) :
    Keeps I (onlyIf c m) :=
  .ite hm fun _ => .pure ()

theorem Keeps.map {m : Act ε σ α} (hm : Keeps I m) (f : α → β) : Keeps I (f <$> m) :=
  Triple.bind hm fun _ => Keeps.pure _

theorem Keeps.bind {m : Act ε σ α} {f : α → Act ε σ β} (hm : Keeps I m) (hf : ∀ a, Keeps I (f a)) :
    Keeps I (m >>= f) :=
  Triple.bind hm hf

theorem Keeps.onError {m : Act ε σ α} {handler : ε → Act ε σ Unit} (hm : Keeps I m)
    (hh : ∀ e, Keeps I (handler e)) : Keeps I (m.onError handler) :=
  Triple.onError hm hh

theorem Keeps.catching {m : Act ε σ α} {handler : ε → Act ε σ α} (hm : Keeps I m)
    (hh : ∀ e, Keeps I (handler e)) : Keeps I (m.catching handler) :=
  Triple.catching hm hh

theorem Keeps.ensuring {m : Act ε σ α} {cleanup : Act ε σ Unit} (hm : Keeps I m)
    (hc : Keeps I cleanup) : Keeps I (m.ensuring cleanup) :=
  Triple.ensuring hm (fun _ => hc) fun _ => hc

theorem Keeps.forEach {f : ι → Act ε σ Unit} (hf : ∀ i, Keeps I (f i)) :
    ∀ items, Keeps I (forEach f items)
  | [] => Keeps.pure ()
  | i :: rest => (hf i).bind fun _ => Keeps.forEach hf rest

theorem Keeps.collect_of_mem {f : ι → Act ε σ α} :
    ∀ items, (∀ i ∈ items, Keeps I (f i)) → Keeps I (collect f items)
  | [], _ => Keeps.pure []
  | i :: rest, hf => (hf i List.mem_cons_self).bind fun _ =>
      (Keeps.collect_of_mem rest fun j hj => hf j (List.mem_cons_of_mem i hj)).bind fun _ =>
        Keeps.pure _

theorem Keeps.collect {f : ι → Act ε σ α} (hf : ∀ i, Keeps I (f i)) (items : List ι) :
    Keeps I (collect f items) :=
  Keeps.collect_of_mem items fun i _ => hf i

/-- A part of the state may be changed freely where the invariant does not look. -/
theorem Keeps.zoom {part : σ → τ} {put : τ → σ → σ} (m : Act ε τ α)
    (h : ∀ s t, I s → I (put t s)) : Keeps I (zoom part put m) := by
  intro s hs
  unfold Act.zoom
  rcases m (part s) with ⟨outcome, t⟩
  cases outcome <;> exact h s t hs

/-- What holds at both ends of a program holds after it. -/
theorem Triple.after {P : σ → Prop} {m : Act ε σ α} (h : Triple P m (fun _ => I) fun _ => I)
    {s : σ} (hs : P s) : I (m s).2 := by
  have hends := h s hs
  generalize m s = ended at hends ⊢
  rcases ended with ⟨outcome, s'⟩
  cases outcome <;> exact hends

/-- The state after a program that keeps an invariant. -/
theorem Keeps.after {m : Act ε σ α} (h : Keeps I m) {s : σ} (hs : I s) : I (m s).2 :=
  Triple.after h hs

/-- The state a program returns in, if it keeps an invariant. -/
theorem Keeps.at_ok {m : Act ε σ α} (h : Keeps I m) {s s' : σ} {a : α} (hs : I s)
    (hm : m s = (.ok a, s')) : I s' := by
  have hafter := h.after hs
  rw [hm] at hafter
  exact hafter

theorem Keeps.of_after {m : Act ε σ α} (h : ∀ s, I s → I (m s).2) : Keeps I m := by
  intro s hs
  have hafter := h s hs
  generalize m s = ended at hafter ⊢
  rcases ended with ⟨outcome, s'⟩
  cases outcome <;> exact hafter

end Invariants

/-- Wherever it starts, the program raises. -/
def Fails (m : Act ε σ α) : Prop := Triple (fun _ => True) m (fun _ _ => False) fun _ _ => True

/-!
### Programs that fail

What fails leaves nothing but an error, whatever comes behind it.
-/

section Failures

theorem Fails.ofExcept {x : Except ε α} {e : ε} (h : x = .error e) :
    Fails (ofExcept x : Act ε σ α) := by
  refine Triple.ofExcept (fun _ a _ hok => ?_) fun _ _ _ _ => trivial
  rw [h] at hok
  cases hok

/-- What comes after a failure does not matter. -/
theorem Fails.andThen {m : Act ε σ α} (h : Fails m) (f : α → Act ε σ β) : Fails (m >>= f) :=
  Triple.bind h fun _ _ hfalse => hfalse.elim

theorem Fails.bind {m : Act ε σ α} {f : α → Act ε σ β} (h : ∀ a, Fails (f a)) : Fails (m >>= f) :=
  Triple.bind (Triple.anywhere m) h

theorem Fails.onError {m : Act ε σ α} {handler : ε → Act ε σ Unit} (h : Fails m) :
    Fails (m.onError handler) :=
  Triple.onError h fun _ => Triple.anywhere _

theorem Fails.eq_error {m : Act ε σ α} (h : Fails m) (s : σ) : ∃ e s', m s = (.error e, s') := by
  have hends := h s trivial
  rcases hm : m s with ⟨_ | a, s'⟩
  · exact ⟨_, _, rfl⟩
  · rw [hm] at hends
    exact hends.elim

end Failures

/-!
### Programs that replay

Two runs of a program from related states come to related states and the same value.
-/

section Replay

/-- From states that are related, two programs come to the same outcome, in states that
    are related. -/
def Agrees (R : σ → τ → Prop) (m : Act ε σ α) (m' : Act ε τ α) : Prop :=
  ∀ s t, R s t → (m s).1 = (m' t).1 ∧ R (m s).2 (m' t).2

variable {R : σ → τ → Prop}

theorem Agrees.pure (a : α) : Agrees R (pure a : Act ε σ α) (pure a : Act ε τ α) :=
  fun _ _ h => ⟨rfl, h⟩

theorem Agrees.raise (e : ε) : Agrees R (raise e : Act ε σ α) (raise e : Act ε τ α) :=
  fun _ _ h => ⟨rfl, h⟩

/-- Programs that come to the same go on alike. -/
theorem Agrees.bind_at {m : Act ε σ α} {m' : Act ε τ α} {f : α → Act ε σ β} {f' : α → Act ε τ β}
    {s : σ} {t : τ} (hm : (m s).1 = (m' t).1 ∧ R (m s).2 (m' t).2)
    (hf : ∀ a, Agrees R (f a) (f' a)) :
    ((m >>= f) s).1 = ((m' >>= f') t).1 ∧ R ((m >>= f) s).2 ((m' >>= f') t).2 := by
  rw [bind_apply, bind_apply]
  generalize m s = ended at hm ⊢
  generalize m' t = ended' at hm ⊢
  rcases ended with ⟨outcome, s'⟩
  rcases ended' with ⟨outcome', t'⟩
  rcases hm with ⟨rfl, hrelated⟩
  cases outcome with
  | ok a => exact hf a s' t' hrelated
  | error e => exact ⟨rfl, hrelated⟩

theorem Agrees.bind {m : Act ε σ α} {m' : Act ε τ α} {f : α → Act ε σ β} {f' : α → Act ε τ β}
    (hm : Agrees R m m') (hf : ∀ a, Agrees R (f a) (f' a)) : Agrees R (m >>= f) (m' >>= f') :=
  fun s t h => Agrees.bind_at (hm s t h) hf

theorem Agrees.raiseIf (c : Prop) [Decidable c] (e : ε) :
    Agrees R (raiseIf c e : Act ε σ Unit) (raiseIf c e : Act ε τ Unit) := by
  unfold Act.raiseIf
  by_cases hc : c
  · rw [if_pos hc, if_pos hc]
    exact .raise e
  · rw [if_neg hc, if_neg hc]
    exact .pure ()

theorem Agrees.forEach {f : ι → Act ε σ Unit} {f' : ι → Act ε τ Unit}
    (hf : ∀ i, Agrees R (f i) (f' i)) : ∀ items, Agrees R (forEach f items) (forEach f' items)
  | [] => Agrees.pure ()
  | i :: rest => (hf i).bind fun _ => Agrees.forEach hf rest

/-- A list is gone through in two parts. -/
theorem forEach_append (f : ι → Act ε σ Unit) (items rest : List ι) (s : σ) :
    forEach f (items ++ rest) s = (forEach f items >>= fun _ => forEach f rest) s := by
  induction items generalizing s with
  | nil => rfl
  | cons i items ih =>
      change (f i >>= fun _ => forEach f (items ++ rest)) s =
        ((f i >>= fun _ => forEach f items) >>= fun _ => forEach f rest) s
      rw [bind_apply, bind_apply, bind_apply]
      generalize f i s = ended
      rcases ended with ⟨_ | _, s'⟩
      · rfl
      · exact ih s'

end Replay

end Act

end STS2RL
