import Mathlib

/-!
# Histories

A log whose entries are each allowed by what was logged before. A component that
appends to a log keeps it justified by checking each entry once, when it is
appended; whatever is asked of the log later is then asked of one entry and what
precedes it.

## Main definitions

* `History.Justified`: Every entry was allowed when it was appended.

## Theorems

* `justified_concat`: One more entry.
* `justified_append_left`: An earlier log of the same history.
-/

namespace STS2RL

namespace History

variable {ε : Type}

/-- Every entry of the log was allowed by what was logged before it. -/
def Justified (Allowed : List ε → ε → Prop) (log : List ε) : Prop :=
  ∀ before event after, log = before ++ event :: after → Allowed before event

variable {Allowed : List ε → ε → Prop} {log : List ε}

theorem justified_nil : Justified Allowed ([] : List ε) := by
  intro before event after h
  exact absurd h (by simp)

theorem justified_append_left {later : List ε} (h : Justified Allowed (log ++ later)) :
    Justified Allowed log := by
  intro before event after hlog
  refine h before event (after ++ later) ?_
  rw [hlog, List.append_assoc, List.cons_append]

/-- A log goes on with an entry that is allowed by it. -/
theorem justified_concat {event : ε} :
    Justified Allowed (log ++ [event]) ↔ Justified Allowed log ∧ Allowed log event := by
  constructor
  · intro h
    exact ⟨justified_append_left h, h log event [] rfl⟩
  · rintro ⟨hlog, hevent⟩ before found after h
    by_cases hafter : after = []
    · rw [hafter] at h
      rcases List.append_inj' h rfl with ⟨rfl, heq⟩
      cases heq
      exact hevent
    · refine hlog before found after.dropLast ?_
      have hlast := congrArg List.dropLast h
      rwa [List.dropLast_concat, List.dropLast_append_of_ne_nil (List.cons_ne_nil _ _),
        List.dropLast_cons_of_ne_nil hafter] at hlast

end History

end STS2RL
