import STS2RL.Core.Dict
import STS2RL.Core.Except
import STS2RL.Core.Json

/-!
# Choice Work Items

What crosses the queues between the whole-run pool and its workers, and the
leases by which a continuation finds the worker that waits at its choice.

What a worker replays for an item and what it reports of the board are not read
by the pool. They are type parameters, `ρ` and `τ`.

## Main definitions

* `ChoiceWorkItem`, `WorkerExecutionRequest`, `BranchResult`: A job, how it is
  to be run, and what came of it.
* `Lease`, `LeaseRegistry`: Which worker waits at which choice.
-/

namespace STS2RL

namespace WholeRun

/-- A place for one worker process: the main run's or a branch's. -/
inductive WorkerSlot where
  | main
  | branch (index : Nat)
  deriving DecidableEq, Repr

/-- A slot's `repr`. -/
def WorkerSlot.text : WorkerSlot → String
  | main => "'main'"
  | branch index => toString index

/-- What a choice is sent as. -/
inductive WorkKind where
  | continuation
  | subBranch
  deriving DecidableEq, Repr

/-- How a worker reaches the room of a choice. -/
inductive ExecutionMode where
  | bootstrapStep
  | holderStep
  deriving DecidableEq, Repr

/-- How a choice ended. -/
inductive BranchStatus where
  | success
  | fault
  deriving DecidableEq, Repr

variable {ρ τ : Type}

/-- A choice to play; `replay` is what its worker needs to reach the room. -/
structure ChoiceWorkItem (ρ : Type) where
  workId : String
  contextId : String
  workKind : WorkKind
  replay : ρ

/-- A worker that waits at a choice, in one generation of its slot. -/
structure Lease where
  workerSlot : WorkerSlot
  workerGeneration : Nat
  pid : Nat
  contextId : String
  combatSessionId : Option String
  runSeed : Json
  stepSignature : String
  deriving DecidableEq

/-- `Lease.is_valid_for`, with the generation given. -/
def Lease.isValidFor (lease : Lease) (item : ChoiceWorkItem ρ) (workerGeneration : Nat) : Bool :=
  item.workKind = .continuation ∧ lease.contextId = item.contextId ∧
    lease.workerGeneration = workerGeneration

/-- `LeaseRegistry`: the leases by context. -/
structure LeaseRegistry where
  leases : Dict String Lease := Dict.empty

namespace LeaseRegistry

/-- `LeaseRegistry.get`. -/
def get? (registry : LeaseRegistry) (contextId : String) : Option Lease :=
  registry.leases.get? contextId

/-- `LeaseRegistry.set`: a context has one lease. -/
def set (registry : LeaseRegistry) (lease : Lease) : LeaseRegistry :=
  ⟨registry.leases.set lease.contextId lease⟩

/-- The lease of a context is dropped. -/
def invalidate (registry : LeaseRegistry) (contextId : String) : LeaseRegistry :=
  ⟨registry.leases.erase contextId⟩

/-- `invalidate_lease`: remove the lease if it is the one there. -/
def invalidateLease (registry : LeaseRegistry) (lease : Lease) : LeaseRegistry :=
  if registry.get? lease.contextId = some lease then registry.invalidate lease.contextId
  else registry

/-- The leases of one incarnation of a worker are dropped. -/
def invalidateWorkerGeneration (registry : LeaseRegistry) (slot : WorkerSlot) (generation : Nat) :
    LeaseRegistry :=
  ⟨registry.leases.eraseWhere fun _ lease =>
    lease.workerSlot = slot ∧ lease.workerGeneration = generation⟩

/-- The leases of a worker are dropped, of whichever incarnation. -/
def invalidateWorkerAllGenerations (registry : LeaseRegistry) (slot : WorkerSlot) :
    LeaseRegistry :=
  ⟨registry.leases.eraseWhere fun _ lease => lease.workerSlot = slot⟩

/-- Whether the slot is among `worker_slots_holding_leases`. -/
def holdsWorker (registry : LeaseRegistry) (slot : WorkerSlot) : Bool :=
  registry.leases.entries.any fun entry => entry.2.workerSlot = slot

end LeaseRegistry

/-- What is known of a fault. -/
structure Diagnostics where
  faultKind : String
  exceptionType : String
  message : String
  deriving DecidableEq

/-- What a worker, or the pool in its place, reports for an item. -/
structure BranchResult (ρ τ : Type) where
  status : BranchStatus
  workItem : ChoiceWorkItem ρ
  executionMode : ExecutionMode
  workerSlot : Option WorkerSlot
  workerGeneration : Option Nat
  pid : Option Nat
  report : Option τ := none
  establishedLease : Option Lease := none
  diagnostics : Option Diagnostics := none

/-- What is sent to a worker. -/
structure WorkerExecutionRequest (ρ : Type) where
  workItem : ChoiceWorkItem ρ
  executionMode : ExecutionMode
  expectedLease : Option Lease := none

/-- `_fault_result`. -/
def faultResult (item : ChoiceWorkItem ρ) (executionMode : ExecutionMode) (slot : WorkerSlot)
    (workerGeneration : Option Nat) (faultKind : String) (exc : PyException) :
    BranchResult ρ τ where
  status := .fault
  workItem := item
  executionMode
  workerSlot := some slot
  workerGeneration
  pid := none
  diagnostics := some ⟨faultKind, exc.typeName, exc.message⟩

end WholeRun

end STS2RL
