import STS2RL.Api.Server
import Mathlib.Data.Finset.Basic
import Mathlib.Data.Finset.Insert

/-!
# Gameplay Identifiers

The identifiers an instance hands out and takes: the branch ids that were ever
used, the decision point that is current for each branch, and the hypothesis
index of each rng id at each decision.

A table of hypotheses only grows, so its size marks a point to go back to, and
going back undoes the allocations since in the opposite order.

## Main definitions

* `BranchIdRegistry`: The branch ids that were used.
* `DecisionPointRegistry`: The current decision points.
* `RngHypothesisTable`: The indices of the hypotheses.
* `RngHypothesisTable.Counted`: The next index of a decision is never zero.
* `RngHypothesisTable.Allocated`: One table came from another by allocations.

## Theorems

* `rollbackRegistration_register`: Undoing a registration.
* `restore_allocated`: Undoing any number of allocations.
-/

namespace STS2RL

/-- Scalar text in front. -/
def PyStr.prepend (s : String) : PyStr → PyStr
  | .text t => .text (s ++ t)
  | .lone before code rest => .lone (s ++ before) code rest

namespace Api

/-- `BranchIdRegistry`. -/
structure BranchIdRegistry where
  everUsed : Finset PyStr := {.text rootBranchId}
  deriving DecidableEq

namespace BranchIdRegistry

variable (registry : BranchIdRegistry)

/-- `is_known`. -/
def isKnown (branchId : PyStr) : Bool := branchId ∈ registry.everUsed

/-- The rejection of a branch id that was used. -/
def alreadyUsed (branchId : PyStr) : PyError :=
  .rejected (reject ("branch_id " ++ pyRepr branchId ++
    " already used (branch IDs are never reusable)"))

/-- `register`. -/
def register (branchId : PyStr) : Except PyError BranchIdRegistry :=
  if registry.isKnown branchId then .error (alreadyUsed branchId)
  else .ok ⟨insert branchId registry.everUsed⟩

/-- `rollback_registration`. -/
def rollbackRegistration (branchId : PyStr) : BranchIdRegistry :=
  if branchId = .text rootBranchId then registry else ⟨registry.everUsed.erase branchId⟩

theorem register_eq_ok {branchId : PyStr} {registered : BranchIdRegistry}
    (h : registry.register branchId = .ok registered) :
    branchId ∉ registry.everUsed ∧ registered = ⟨insert branchId registry.everUsed⟩ := by
  unfold register isKnown at h
  by_cases hknown : branchId ∈ registry.everUsed
  · simp [hknown] at h
  · simp only [hknown, decide_false, Bool.false_eq_true, if_false, Except.ok.injEq] at h
    exact ⟨hknown, h.symm⟩

/-- A registration that is undone leaves the registry as it was. -/
theorem rollbackRegistration_register {branchId : PyStr} {registered : BranchIdRegistry}
    (hroot : .text rootBranchId ∈ registry.everUsed)
    (h : registry.register branchId = .ok registered) :
    registered.rollbackRegistration branchId = registry := by
  rcases register_eq_ok registry h with ⟨hnew, rfl⟩
  have hne : branchId ≠ .text rootBranchId := fun heq => hnew (heq ▸ hroot)
  unfold rollbackRegistration
  rw [if_neg hne, Finset.erase_insert hnew]

end BranchIdRegistry

/-- `DecisionPointRegistry`. -/
structure DecisionPointRegistry where
  counter : Nat := 1
  current : Dict PyStr PyStr := Dict.empty

namespace DecisionPointRegistry

variable (registry : DecisionPointRegistry)

/-- `f"d-{branch_id}-{n:06d}"`. -/
def idFor (branchId : PyStr) (n : Nat) : PyStr :=
  (branchId.append ("-" ++ pad6 n)).prepend "d-"

/-- `issue`. -/
def issue (branchId : PyStr) : DecisionPointRegistry where
  counter := registry.counter + 1
  current := registry.current.set branchId (idFor branchId registry.counter)

/-- `current`. -/
def current? (branchId : PyStr) : Option PyStr := registry.current.get? branchId

/-- `repr` of a decision point. -/
def pointText (given : PyStr) (current : PyStr) : String :=
  "given=" ++ pyRepr given ++ " current=" ++ pyRepr current

/-- `validate`. -/
def validate (branchId given : PyStr) : Except PyError Unit :=
  match registry.current? branchId with
  | none => .error (.rejected (reject ("branch_id " ++ pyRepr branchId ++
      " has no active decision_point_id")))
  | some current =>
      if current ≠ given then
        .error (.rejected (reject ("stale decision_point_id for branch_id " ++ pyRepr branchId ++
          ": " ++ pointText given current)))
      else .ok ()

/-- `clear`. -/
def clear (branchId : PyStr) : DecisionPointRegistry :=
  { registry with current := registry.current.erase branchId }

/-- `restore_current`. -/
def restoreCurrent (branchId : PyStr) (decisionPointId : Option PyStr) : DecisionPointRegistry :=
  { registry with
    current := match decisionPointId with
      | none => registry.current.erase branchId
      | some decisionPointId => registry.current.set branchId decisionPointId }

theorem validate_eq_ok {branchId given : PyStr} :
    registry.validate branchId given = .ok () ↔ registry.current? branchId = some given := by
  unfold validate
  cases registry.current? branchId with
  | none => simp
  | some current => by_cases h : current = given <;> simp [h]

end DecisionPointRegistry

/-- `(parent_branch_id, decision_point_id, rng_id)`. -/
abbrev RngKey := PyStr × PyStr × Int

/-- `RngHypothesisTable`. -/
structure RngHypothesisTable where
  indexByKey : Dict RngKey Nat := Dict.empty
  nextIndexByParentDecision : Dict (PyStr × PyStr) Nat := Dict.empty

namespace RngHypothesisTable

/-- `(parent_branch_id, decision_point_id)`. -/
def parentDecision (key : RngKey) : PyStr × PyStr := (key.1, key.2.1)

/-- A new key takes the next index of its decision. -/
def allocate (table : RngHypothesisTable) (key : RngKey) : RngHypothesisTable :=
  let nextIndex := (table.nextIndexByParentDecision.get? (parentDecision key)).getD 0
  { indexByKey := table.indexByKey.set key nextIndex
    nextIndexByParentDecision :=
      table.nextIndexByParentDecision.set (parentDecision key) (nextIndex + 1) }

/-- `hypothesis_index_for`. -/
def hypothesisIndexFor (table : RngHypothesisTable) (key : RngKey) : Nat × RngHypothesisTable :=
  match table.indexByKey.get? key with
  | some index => (index, table)
  | none =>
      ((table.nextIndexByParentDecision.get? (parentDecision key)).getD 0, table.allocate key)

/-- `snapshot`. -/
def snapshot (table : RngHypothesisTable) : Nat := table.indexByKey.size

/-- One turn of the loop of `restore`: the newest entry, by `popitem`. -/
def popNewest (table : RngHypothesisTable) : RngHypothesisTable :=
  match table.indexByKey.entries.getLast? with
  | none => table
  | some (key, index) =>
      { indexByKey := table.indexByKey.erase key
        nextIndexByParentDecision :=
          if index = 0 then table.nextIndexByParentDecision.erase (parentDecision key)
          else table.nextIndexByParentDecision.set (parentDecision key) index }

/-- `restore`. -/
def restore (table : RngHypothesisTable) (marker : Nat) : Except PyError RngHypothesisTable :=
  if table.indexByKey.size < marker then
    .error (.raised "ValueError" "RNG rollback snapshot is outside the current allocation history")
  else .ok (popNewest^[table.indexByKey.size - marker] table)

/-- The next index of a decision counts its allocations, so it is never zero. -/
def Counted (table : RngHypothesisTable) : Prop :=
  ∀ pair next, table.nextIndexByParentDecision.get? pair = some next → next ≠ 0

theorem counted_new : Counted {} := by
  intro pair next h
  cases h

variable {table : RngHypothesisTable}

theorem Counted.allocate (h : table.Counted) (key : RngKey) : (table.allocate key).Counted := by
  intro pair next hnext
  unfold RngHypothesisTable.allocate at hnext
  rw [Dict.get?_set] at hnext
  by_cases hpair : pair = parentDecision key
  · rw [if_pos hpair] at hnext
    cases hnext
    exact Nat.succ_ne_zero _
  · rw [if_neg hpair] at hnext
    exact h pair next hnext

/-- Popping the newest entry undoes its allocation. -/
theorem popNewest_allocate (h : table.Counted) {key : RngKey}
    (hnew : table.indexByKey.get? key = none) : (table.allocate key).popNewest = table := by
  rcases table with ⟨indexByKey, nextIndex⟩
  have hlast : ((RngHypothesisTable.allocate ⟨indexByKey, nextIndex⟩
    key).indexByKey.entries).getLast? =
      some (key, (nextIndex.get? (parentDecision key)).getD 0) := by
    unfold RngHypothesisTable.allocate
    rw [Dict.entries_set_of_none _ _ hnew, List.getLast?_append]
    rfl
  unfold popNewest
  rw [hlast]
  unfold RngHypothesisTable.allocate
  dsimp only
  rw [Dict.erase_set_of_none _ _ hnew]
  cases hnext : nextIndex.get? (parentDecision key) with
  | none =>
      rw [Option.getD_none, if_pos rfl, Dict.erase_set_of_none _ _ hnext]
  | some next =>
      rw [Option.getD_some, if_neg (h _ next hnext), Dict.set_set, Dict.set_of_get? _ hnext]

/-- Whether a table came from another by allocations. -/
inductive Allocated (table : RngHypothesisTable) : RngHypothesisTable → Prop
  | refl : Allocated table table
  | allocate {table' : RngHypothesisTable} {key : RngKey} (h : Allocated table table')
      (hnew : table'.indexByKey.get? key = none) : Allocated table (table'.allocate key)

theorem Allocated.counted {table' : RngHypothesisTable} (h : Allocated table table')
    (hcounted : table.Counted) : table'.Counted := by
  induction h with
  | refl => exact hcounted
  | allocate _ _ ih => exact ih.allocate _

theorem Allocated.snapshot_le {table' : RngHypothesisTable} (h : Allocated table table') :
    table.snapshot ≤ table'.snapshot := by
  induction h with
  | refl => exact Nat.le_refl _
  | allocate _ hnew ih =>
      unfold snapshot RngHypothesisTable.allocate at *
      rw [Dict.size_set_of_none _ _ _ hnew]
      omega

/-- Reading an index allocates at most. -/
theorem Allocated.hypothesisIndexFor {table' : RngHypothesisTable} (h : Allocated table table')
    (key : RngKey) : Allocated table (table'.hypothesisIndexFor key).2 := by
  unfold RngHypothesisTable.hypothesisIndexFor
  split
  · exact h
  · rename_i hnew
    exact h.allocate hnew

/-- The allocations since a snapshot can be undone. -/
theorem restore_allocated {table' : RngHypothesisTable} (h : Allocated table table')
    (hcounted : table.Counted) : table'.restore table.snapshot = .ok table := by
  unfold restore
  rw [if_neg (show ¬ table'.indexByKey.size < table.snapshot from Nat.not_lt.mpr h.snapshot_le)]
  refine congrArg Except.ok ?_
  -- Each allocation is one turn of the loop.
  induction h with
  | refl => simp [snapshot]
  | allocate hbefore hnew ih =>
      rename_i before key
      have hsize : (before.allocate key).indexByKey.size = before.indexByKey.size + 1 :=
        Dict.size_set_of_none _ _ _ hnew
      have hbefore' := hbefore.snapshot_le
      unfold snapshot at *
      rw [hsize, Nat.succ_sub hbefore', Function.iterate_succ_apply,
        popNewest_allocate (hbefore.counted hcounted) hnew]
      exact ih

end RngHypothesisTable

end Api

end STS2RL
