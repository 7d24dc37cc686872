import STS2RL.Combat.FaultTaxonomy
import STS2RL.Combat.WorkItem

/-!
# Branch Results

What a worker reports for one work item, and the lease a pending result gives.

A result is a success at one of the three boundaries or a fault with its
diagnostics. Which of the optional parts are present follows from that; the
structure carries the proof, as the source's constructor raises otherwise.

A lease says that a worker still stands at the pending decision it reported, and
which decision that was. It is good for the continuation of that decision only
(`Lease.isValidFor`).

## Main definitions

* `Lease`, `Lease.isValidFor`: The claim on a worker, and what it covers.
* `BranchResult`: A success or a fault of one work item.
-/

namespace STS2RL

namespace Combat

variable {κ β : Type}

/-- How a worker reaches the decision of an item. -/
inductive ExecutionMode where
  | bootstrapStep
  | holderStep
  deriving DecidableEq, Repr

/-- A worker's hold on the pending decision it last reported. -/
structure Lease where
  workerId : Nat
  workerGeneration : Nat
  contextId : String
  searchHypothesisId : Option String
  stateEpoch : Nat
  combatSessionId : Option String
  stepIndex : Int
  decisionResultDigest : String
  deriving DecidableEq

/-- What a registry keeps a lease under. -/
def Lease.key (lease : Lease) : String × Option String :=
  (lease.contextId, lease.searchHypothesisId)

/-- The key of a lease that covers the item. -/
def WorkItem.leaseKey (item : WorkItem κ β) : String × Option String :=
  (item.contextId, item.searchHypothesisId)

/-- `Lease.is_valid_for`, with the worker's current generation. -/
def Lease.isValidFor (digests : Digests κ) (lease : Lease) (item : WorkItem κ β)
    (workerGeneration : Nat) : Bool :=
  let expected := item.decisionContext.currentContextSignature
  item.workKind = .continuation ∧ lease.contextId = item.contextId ∧
    lease.searchHypothesisId = item.searchHypothesisId ∧
    lease.workerGeneration = workerGeneration ∧
    lease.combatSessionId = expected.combatSessionId ∧ lease.stepIndex = expected.stepIndex ∧
    lease.decisionResultDigest = Combat.decisionResultDigest digests expected

/-- How an item ended. -/
inductive BranchStatus where
  | success
  | fault
  deriving DecidableEq, Repr

/-- The end of a combat, as a branch saw it. -/
structure BranchTerminalResult where
  isTerminal : Bool
  outcome : String
  deriving DecidableEq

/-- What a worker reports for one work item. -/
structure BranchResult (κ β : Type) where
  status : BranchStatus
  executionMode : ExecutionMode
  workerId : Option Nat
  workerGeneration : Option Nat
  resultSignature : Option DecisionSignature := none
  childSnapshot : Option κ := none
  terminalResult : Option BranchTerminalResult := none
  pendingDecisionContext : Option (DecisionContext κ β) := none
  establishedLease : Option Lease := none
  nextDecisionResult : Option (BattleState β) := none
  diagnostics : Diagnostics := {}
  oneBoundary : childSnapshot = none ∨ terminalResult = none
  success_boundary : status = .success → ∃ signature, resultSignature = some signature ∧
    (signature.boundary = .stable → childSnapshot.isSome) ∧
    (signature.boundary = .terminal → terminalResult.isSome) ∧
    (signature.boundary = .pending → childSnapshot = none ∧ terminalResult = none ∧
      pendingDecisionContext.isSome ∧ establishedLease.isSome)

/-- A result with neither a snapshot nor a terminal result. -/
theorem noBoundary (κ : Type) :
    (none : Option κ) = none ∨ (none : Option BranchTerminalResult) = none := .inl rfl

/-- `_fault_result`. -/
def faultResult (executionMode : ExecutionMode) (workerId workerGeneration : Option Nat)
    (diagnostics : Diagnostics) : BranchResult κ β :=
  { status := .fault
    executionMode
    workerId
    workerGeneration
    diagnostics
    oneBoundary := noBoundary κ
    success_boundary := fun h => by cases h }

end Combat

end STS2RL
