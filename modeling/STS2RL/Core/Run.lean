import Mathlib

/-!
# Runs of a Transducer

A component that answers a request from its state is a function
`step : σ → α → σ × β`. This file iterates one over a list of requests and
gives the induction rules the components are verified with.

Most invariants hold of every run. Some hold only of the runs whose steps all
meet a condition, and then the condition has to be read in the state each step
starts from; `Along` says that, and `invariant_along` is the induction.

## Main definitions

* `Run.final`: The state after a list of requests.
* `Run.outputs`: The answers to a list of requests.
* `Run.Along`: Every step of a run meets a condition in its own state.
* `Run.after`: The state after so many requests of an infinite run.

## Theorems

* `final_append`, `outputs_append`: Splitting a run at an intermediate request.
* `invariant`: An invariant of the step is an invariant of the run.
* `invariant_along`: The same, for runs whose steps meet a condition.
* `along_congr`: Conditions that agree under an invariant agree along a run.
* `eventually_of_fair`: A run in which what is pending is served comes to an end.
-/

namespace STS2RL

namespace Run

variable {σ α β : Type}

/-- The state after a list of requests. -/
def final (step : σ → α → σ × β) : σ → List α → σ
  | s, [] => s
  | s, a :: as => final step (step s a).1 as

/-- The answers to a list of requests, in order. -/
def outputs (step : σ → α → σ × β) : σ → List α → List β
  | _, [] => []
  | s, a :: as => (step s a).2 :: outputs step (step s a).1 as

/-- Every step of the run meets `P` in the state it starts from. -/
def Along (step : σ → α → σ × β) (P : σ → α → Prop) : σ → List α → Prop
  | _, [] => True
  | s, a :: as => P s a ∧ Along step P (step s a).1 as

variable (step : σ → α → σ × β)

theorem final_append (s : σ) (as bs : List α) :
    final step s (as ++ bs) = final step (final step s as) bs := by
  induction as generalizing s with
  | nil => rfl
  | cons a as ih => exact ih (step s a).1

theorem final_concat (s : σ) (as : List α) (a : α) :
    final step s (as ++ [a]) = (step (final step s as) a).1 :=
  final_append step s as [a]

theorem outputs_append (s : σ) (as bs : List α) :
    outputs step s (as ++ bs) = outputs step s as ++ outputs step (final step s as) bs := by
  induction as generalizing s with
  | nil => rfl
  | cons a as ih => exact congrArg ((step s a).2 :: ·) (ih (step s a).1)

theorem outputs_concat (s : σ) (as : List α) (a : α) :
    outputs step s (as ++ [a]) = outputs step s as ++ [(step (final step s as) a).2] :=
  outputs_append step s as [a]

/-- An invariant of the step is an invariant of the run. -/
theorem invariant {I : σ → Prop} (hstep : ∀ s a, I s → I (step s a).1) (s : σ)
    (as : List α) (hs : I s) : I (final step s as) := by
  induction as generalizing s with
  | nil => exact hs
  | cons a as ih => exact ih (step s a).1 (hstep s a hs)

/-- An invariant that steps keep when they meet a condition is kept by the runs
    whose steps all meet it. -/
theorem invariant_along {I : σ → Prop} {P : σ → α → Prop}
    (hstep : ∀ s a, I s → P s a → I (step s a).1) (s : σ) (as : List α) (hs : I s)
    (hP : Along step P s as) : I (final step s as) := by
  induction as generalizing s with
  | nil => exact hs
  | cons a as ih => exact ih (step s a).1 (hstep s a hs hP.1) hP.2

/-- Along a run with an invariant, two conditions that agree where it holds are
    the same condition. -/
theorem along_congr {I : σ → Prop} {P Q : σ → α → Prop} (hcongr : ∀ s a, I s → (P s a ↔ Q s a))
    (hstep : ∀ s a, I s → P s a → I (step s a).1) (s : σ) (as : List α) (hs : I s) :
    Along step P s as ↔ Along step Q s as := by
  induction as generalizing s with
  | nil => exact Iff.rfl
  | cons a as ih =>
      constructor
      · rintro ⟨hfirst, hrest⟩
        exact ⟨(hcongr s a hs).1 hfirst, (ih _ (hstep s a hs hfirst)).1 hrest⟩
      · rintro ⟨hfirst, hrest⟩
        have hfirst' := (hcongr s a hs).2 hfirst
        exact ⟨hfirst', (ih _ (hstep s a hs hfirst')).2 hrest⟩

/-- Along a run with an invariant, a condition that gives another where it holds. -/
theorem along_imp {I : σ → Prop} {P Q : σ → α → Prop} (himp : ∀ s a, I s → P s a → Q s a)
    (hstep : ∀ s a, I s → I (step s a).1) (s : σ) (as : List α) (hs : I s)
    (hP : Along step P s as) : Along step Q s as := by
  induction as generalizing s with
  | nil => trivial
  | cons a as ih => exact ⟨himp s a hs hP.1, ih _ (hstep s a hs) hP.2⟩

section Fair

/-- The state after the first `n` requests of a stream. -/
def after (s : σ) (stream : Nat → α) : Nat → σ
  | 0 => s
  | n + 1 => (step (after s stream n) (stream n)).1

/-- A run comes to an end when, as long as it has not, something is pending, what
    is pending stays so until a measure falls, the measure never rises, and every
    pending thing is served at last, which makes the measure fall. -/
theorem eventually_of_fair {ω : Type} (Done I : σ → Prop) (measure : σ → Nat)
    (Pending : σ → ω → Prop) (Serves : ω → α → Prop)
    (hpending : ∀ s, I s → ¬ Done s → ∃ o, Pending s o)
    (hinv : ∀ s a, I s → I (step s a).1)
    (hkeep : ∀ s a o, I s → Pending s o → ¬ Done (step s a).1 →
      measure (step s a).1 < measure s ∨
        (measure (step s a).1 ≤ measure s ∧ Pending (step s a).1 o ∧ ¬ Serves o a))
    (s : σ) (hs : I s) (stream : Nat → α)
    (hfair : ∀ n o, Pending (after step s stream n) o → ∃ m, n ≤ m ∧ Serves o (stream m)) :
    ∃ n, Done (after step s stream n) := by
  by_contra hnever
  have hnever' : ∀ n, ¬ Done (after step s stream n) := fun n h => hnever ⟨n, h⟩
  have hinvs : ∀ n, I (after step s stream n) := by
    intro n
    induction n with
    | zero => exact hs
    | succ n ih => exact hinv _ _ ih
  -- From any point on the measure falls once more.
  have hfalls : ∀ n, ∃ m, measure (after step s stream m) < measure (after step s stream n) := by
    intro n
    rcases hpending _ (hinvs n) (hnever' n) with ⟨o, ho⟩
    rcases hfair n o ho with ⟨m, hnm, hserves⟩
    have huntil : ∀ j, n + j ≤ m →
        (∃ i, measure (after step s stream i) < measure (after step s stream n)) ∨
        (measure (after step s stream (n + j)) ≤ measure (after step s stream n) ∧
          Pending (after step s stream (n + j)) o) := by
      intro j
      induction j with
      | zero => exact fun _ => .inr ⟨Nat.le_refl _, ho⟩
      | succ j ih =>
          intro hj
          rcases ih (by omega) with hless | ⟨hle, hstill⟩
          · exact .inl hless
          · rcases hkeep _ (stream (n + j)) o (hinvs (n + j)) hstill (hnever' (n + j + 1)) with
              hless | ⟨hle', hstill', -⟩
            · exact .inl ⟨n + j + 1, Nat.lt_of_lt_of_le hless hle⟩
            · exact .inr ⟨Nat.le_trans hle' hle, hstill'⟩
    rcases huntil (m - n) (by omega) with hless | ⟨hle, hstill⟩
    · exact hless
    · rw [Nat.add_sub_cancel' hnm] at hle hstill
      rcases hkeep _ (stream m) o (hinvs m) hstill (hnever' (m + 1)) with hless | ⟨-, -, hnot⟩
      · exact ⟨m + 1, Nat.lt_of_lt_of_le hless hle⟩
      · exact absurd hserves hnot
  have hbound : ∀ k n, measure (after step s stream n) ≠ k := by
    intro k
    induction k using Nat.strongRecOn with
    | ind k ih =>
        intro n heq
        rcases hfalls n with ⟨m, hless⟩
        exact ih _ (heq ▸ hless) m rfl
  exact hbound _ 0 rfl

end Fair

end Run

end STS2RL
