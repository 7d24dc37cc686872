import STS2RL.Core.Dict
import STS2RL.Core.Run
import STS2RL.Combat.WorkerRuntime
import Mathlib.Data.List.Dedup

/-!
# The Branch Worker Pool

`BranchWorkerPool` with `dispatch_work_items`: the coordinator routes a batch,
sends every item to a worker, collects the answers from the one result queue,
and settles the leases.

The pool is a machine whose steps are the coordinator's own and the workers'.
A batch is dispatched in one step, as no routing decision reads what a worker
does meanwhile; then workers run, answers are received and waits run out in any
order, until nothing is outstanding and the batch is settled. Whatever a worker
or the session under it does comes in with the step. A step that is not possible
where the pool stands changes nothing.

A worker that is replaced loses its inbox and what it retained. What it had put
on the result queue before stays there and arrives late.

## Main definitions

* `LeaseRegistry`: The leases by context and hypothesis.
* `routeWorkItem`: Holder step or bootstrap, and on which worker.
* `BranchWorkerPool`, `BranchWorkerPool.step`: The pool and its steps.

## Theorems

* `get?_invalidateWorker`: Evicting a worker removes its leases and no others.
* `holdsWorker_iff`: When a worker counts as leased.
* `routeWorkItem_cases`: What routing an item comes to.
-/

namespace STS2RL

namespace Combat

variable {κ β : Type}

/-- `LeaseRegistry`: the leases by `Lease.key`. -/
structure LeaseRegistry where
  leases : Dict (String × Option String) Lease := Dict.empty

namespace LeaseRegistry

/-- `LeaseRegistry.get`. -/
def get? (registry : LeaseRegistry) (key : String × Option String) : Option Lease :=
  registry.leases.get? key

/-- `LeaseRegistry.set`: a key has one lease. -/
def set (registry : LeaseRegistry) (lease : Lease) : LeaseRegistry :=
  ⟨registry.leases.set lease.key lease⟩

/-- The lease of a key is dropped. -/
def invalidate (registry : LeaseRegistry) (key : String × Option String) : LeaseRegistry :=
  ⟨registry.leases.erase key⟩

/-- `invalidate_lease`: remove the lease if it is the one there. -/
def invalidateLease (registry : LeaseRegistry) (lease : Lease) : LeaseRegistry :=
  if registry.get? lease.key = some lease then registry.invalidate lease.key else registry

/-- The leases of a worker are dropped. -/
def invalidateWorker (registry : LeaseRegistry) (workerId : Nat) : LeaseRegistry :=
  ⟨registry.leases.eraseWhere fun _ lease => lease.workerId = workerId⟩

/-- Whether the worker is among `worker_ids_holding_leases`. -/
def holdsWorker (registry : LeaseRegistry) (workerId : Nat) : Bool :=
  registry.leases.entries.any fun entry => entry.2.workerId = workerId

@[simp]
theorem get?_set (registry : LeaseRegistry) (lease : Lease) (key : String × Option String) :
    (registry.set lease).get? key = if key = lease.key then some lease else registry.get? key :=
  Dict.get?_set registry.leases lease.key key lease

theorem get?_invalidate_some {registry : LeaseRegistry} {key key' : String × Option String}
    {lease : Lease} (h : (registry.invalidate key).get? key' = some lease) :
    registry.get? key' = some lease ∧ key' ≠ key := by
  unfold invalidate get? at h
  by_cases hkey : key' = key
  · rw [hkey, Dict.get?_erase_self] at h
    cases h
  · rw [Dict.get?_erase_ne _ hkey] at h
    exact ⟨h, hkey⟩

theorem get?_invalidateLease_some {registry : LeaseRegistry} {lease lease' : Lease}
    {key : String × Option String} (h : (registry.invalidateLease lease).get? key = some lease') :
    registry.get? key = some lease' := by
  unfold invalidateLease at h
  split at h
  · exact (get?_invalidate_some h).1
  · exact h

/-- Evicting a worker removes its leases and no others. -/
theorem get?_invalidateWorker (registry : LeaseRegistry) (workerId : Nat)
    (key : String × Option String) :
    (registry.invalidateWorker workerId).get? key =
      (registry.get? key).filter fun lease => !decide (lease.workerId = workerId) :=
  Dict.get?_eraseWhere registry.leases _ key

theorem get?_invalidateWorker_some {registry : LeaseRegistry} {workerId : Nat}
    {key : String × Option String} {lease : Lease}
    (h : (registry.invalidateWorker workerId).get? key = some lease) :
    registry.get? key = some lease ∧ lease.workerId ≠ workerId := by
  rw [get?_invalidateWorker, Option.filter_eq_some_iff] at h
  simpa using h

/-- A worker counts as leased while some lease names it. -/
theorem holdsWorker_iff (registry : LeaseRegistry) (workerId : Nat) :
    registry.holdsWorker workerId = true ↔
      ∃ key lease, registry.get? key = some lease ∧ lease.workerId = workerId := by
  unfold holdsWorker
  rw [List.any_eq_true]
  constructor
  · rintro ⟨⟨key, lease⟩, hmem, hworker⟩
    exact ⟨key, lease, (Dict.mem_entries_iff _ key lease).mp hmem, of_decide_eq_true hworker⟩
  · rintro ⟨key, lease, hget, hworker⟩
    exact ⟨(key, lease), (Dict.mem_entries_iff _ key lease).mpr hget, decide_eq_true hworker⟩

end LeaseRegistry

section Routing

/-- A routed item: the request, the worker it goes to, and what the decision
    leaves behind. -/
structure Routing (κ β : Type) where
  request : WorkerExecutionRequest κ β
  workerId : Nat
  registry : LeaseRegistry
  nextBootstrapIndex : Nat

/-- `_choose_bootstrap_worker`. The list of workers is never empty. -/
def chooseBootstrapWorker (workerIds : List Nat) (registry : LeaseRegistry) (nextIndex : Nat) :
    Nat × Nat :=
  let unleased := workerIds.filter fun workerId => !registry.holdsWorker workerId
  let candidates := if unleased ≠ [] then unleased else workerIds
  (candidates.getD (nextIndex % candidates.length) 0, nextIndex + 1)

/-- The bootstrap of `_route_work_item`: the leases of the chosen worker go. -/
def routeBootstrap (item : WorkItem κ β) (registry : LeaseRegistry) (workerIds : List Nat)
    (nextBootstrapIndex : Nat) : Routing κ β :=
  let (workerId, nextBootstrapIndex) :=
    chooseBootstrapWorker workerIds registry nextBootstrapIndex
  { request := { workItem := item, executionMode := .bootstrapStep }
    workerId
    registry :=
      if registry.holdsWorker workerId then registry.invalidateWorker workerId else registry
    nextBootstrapIndex }

/-- The lease a work item may continue, if the one under its key covers it. -/
def coveringLease (digests : Digests κ) (item : WorkItem κ β) (registry : LeaseRegistry)
    (workerGenerations : Nat → Option Nat) : Option Lease :=
  (registry.get? item.leaseKey).filter fun lease =>
    match workerGenerations lease.workerId with
    | none => false
    | some generation => lease.isValidFor digests item generation

/-- A lease that covers an item is registered under its key, on a worker of its generation. -/
theorem coveringLease_eq_some (digests : Digests κ) (item : WorkItem κ β)
    (registry : LeaseRegistry) (workerGenerations : Nat → Option Nat) (lease : Lease)
    (h : coveringLease digests item registry workerGenerations = some lease) :
    registry.get? item.leaseKey = some lease ∧ lease.key = item.leaseKey ∧
      workerGenerations lease.workerId = some lease.workerGeneration := by
  unfold coveringLease at h
  rw [Option.filter_eq_some_iff] at h
  rcases h with ⟨hget, hvalid⟩
  cases hgeneration : workerGenerations lease.workerId with
  | none =>
      rw [hgeneration] at hvalid
      cases hvalid
  | some generation =>
      rw [hgeneration] at hvalid
      unfold Lease.isValidFor at hvalid
      simp only [Bool.decide_and, Bool.and_eq_true, decide_eq_true_eq] at hvalid
      rcases hvalid with ⟨-, hcontext, hhypothesis, hsame, -⟩
      exact ⟨hget, Prod.ext hcontext hhypothesis, congrArg some hsame.symm⟩

/-- `_route_work_item`. -/
def routeWorkItem (digests : Digests κ) (item : WorkItem κ β) (registry : LeaseRegistry)
    (workerIds : List Nat) (workerGenerations : Nat → Option Nat) (nextBootstrapIndex : Nat) :
    Routing κ β :=
  if item.workKind = .continuation then
    match registry.get? item.leaseKey with
    | none => routeBootstrap item registry workerIds nextBootstrapIndex
    | some lease =>
        match coveringLease digests item registry workerGenerations with
        | some lease =>
            { request := { workItem := item, executionMode := .holderStep
                           expectedLease := some lease }
              workerId := lease.workerId
              registry
              nextBootstrapIndex }
        | none =>
            routeBootstrap item (registry.invalidateLease lease) workerIds nextBootstrapIndex
  else routeBootstrap item registry workerIds nextBootstrapIndex

/-- What routing an item comes to: a holder step under the covering lease, or a
    bootstrap on a worker whose leases are gone afterwards. -/
theorem routeWorkItem_cases (digests : Digests κ) (item : WorkItem κ β) (registry : LeaseRegistry)
    (workerIds : List Nat) (workerGenerations : Nat → Option Nat) (nextBootstrapIndex : Nat) :
    let routing := routeWorkItem digests item registry workerIds workerGenerations
      nextBootstrapIndex
    routing.request.workItem = item ∧
      ((∃ lease, coveringLease digests item registry workerGenerations = some lease ∧
          routing.request.executionMode = .holderStep ∧
          routing.request.expectedLease = some lease ∧ routing.workerId = lease.workerId ∧
          routing.registry = registry) ∨
        (routing.request.executionMode = .bootstrapStep ∧
          ∀ key lease, routing.registry.get? key = some lease →
            registry.get? key = some lease ∧ lease.workerId ≠ routing.workerId)) := by
  -- A bootstrap may go to a worker that holds a lease, and takes that worker's leases with it.
  have hbootstrap : ∀ registry' : LeaseRegistry,
      (∀ key lease, registry'.get? key = some lease → registry.get? key = some lease) →
      let routing := routeBootstrap item registry' workerIds nextBootstrapIndex
      routing.request.workItem = item ∧ routing.request.executionMode = .bootstrapStep ∧
        ∀ key lease, routing.registry.get? key = some lease →
          registry.get? key = some lease ∧ lease.workerId ≠ routing.workerId := by
    intro registry' hsub
    refine ⟨rfl, rfl, fun key lease hget => ?_⟩
    unfold routeBootstrap at hget ⊢
    dsimp only at hget ⊢
    split at hget
    · rcases LeaseRegistry.get?_invalidateWorker_some hget with ⟨hold, hne⟩
      exact ⟨hsub key lease hold, hne⟩
    · rename_i hfree
      refine ⟨hsub key lease hget, fun heq => hfree ?_⟩
      exact (LeaseRegistry.holdsWorker_iff _ _).mpr ⟨key, lease, hget, heq⟩
  -- A continuation whose lease is live goes to its worker; everything else is a bootstrap, a
  -- stale lease being dropped first.
  unfold routeWorkItem
  split
  · split
    · rcases hbootstrap registry (fun _ _ h => h) with ⟨hitem, hmode, hleases⟩
      exact ⟨hitem, .inr ⟨hmode, hleases⟩⟩
    · split
      · rename_i lease hcovering
        exact ⟨rfl, .inl ⟨lease, hcovering, rfl, rfl, rfl, rfl⟩⟩
      · rcases hbootstrap _ (fun _ _ => LeaseRegistry.get?_invalidateLease_some) with
          ⟨hitem, hmode, hleases⟩
        exact ⟨hitem, .inr ⟨hmode, hleases⟩⟩
  · rcases hbootstrap registry (fun _ _ h => h) with ⟨hitem, hmode, hleases⟩
    exact ⟨hitem, .inr ⟨hmode, hleases⟩⟩

end Routing

/-- One worker as the pool sees it, with what its process retains. -/
structure WorkerHandle (κ β : Type) where
  workerGeneration : Nat := 1
  runtime : WorkerRuntime β := {}
  inQueue : List (Nat × WorkerExecutionRequest κ β) := []

/-- A request that was sent: `pending_real`, `pending_request_worker_ids` and
    `pending_request_execution_mode` of one request id. -/
structure PendingRequest (κ β : Type) where
  requestId : Nat
  workItem : WorkItem κ β
  workerId : Nat
  executionMode : ExecutionMode

/-- The batch that is being collected. The results are kept with the request
    that each answers, which nothing reads. -/
structure Batch (κ β : Type) where
  workItems : List (WorkItem κ β) := []
  pending : List (PendingRequest κ β) := []
  remaining : List Nat := []
  results : Dict String (Nat × BranchResult κ β) := Dict.empty
  nextBootstrapIndex : Nat := 0

/-- `BranchWorkerPool`. -/
structure BranchWorkerPool (κ β : Type) where
  workerCount : Nat
  workers : Nat → WorkerHandle κ β := fun _ => {}
  registry : LeaseRegistry := {}
  nextBootstrapIndex : Nat := 0
  nextRequestId : Nat := 0
  resultQueue : List (Nat × BranchResult κ β) := []
  batch : Option (Batch κ β) := none
  workerCount_pos : 0 < workerCount

/-- What happens to the pool next. -/
inductive PoolEvent (κ β : Type) where
  | dispatch (workItems : List (WorkItem κ β))
  | run (workerId : Nat) (execution : Execution κ β)
  | receive
  | timeOut
  | settle
  | respawn (workerId : Nat) (withRegistry : Bool)

namespace BranchWorkerPool

variable (digests : Digests κ)

/-- The batch in progress; between two batches one with nothing in it. -/
def current (pool : BranchWorkerPool κ β) : Batch κ β := pool.batch.getD {}

/-- `worker_ids`. -/
def workerIds (pool : BranchWorkerPool κ β) : List Nat := List.range pool.workerCount

/-- The generation of a worker of the pool. -/
def workerGenerations (pool : BranchWorkerPool κ β) (workerId : Nat) : Option Nat :=
  if workerId < pool.workerCount then some (pool.workers workerId).workerGeneration else none

/-- Change one worker. -/
def setWorker (pool : BranchWorkerPool κ β) (workerId : Nat) (handle : WorkerHandle κ β) :
    BranchWorkerPool κ β :=
  { pool with workers := Function.update pool.workers workerId handle }

/-- A fresh process at the worker's place, and the registry as it is afterwards. -/
def replaceWorker (pool : BranchWorkerPool κ β) (workerId : Nat) (registry : LeaseRegistry) :
    BranchWorkerPool κ β :=
  { pool.setWorker workerId
      { workerGeneration := (pool.workers workerId).workerGeneration + 1 } with registry }

/-- `respawn_worker`, given the registry. -/
def respawnWorker (pool : BranchWorkerPool κ β) (workerId : Nat) : BranchWorkerPool κ β :=
  pool.replaceWorker workerId (pool.registry.invalidateWorker workerId)

/-- `_submit`: the next request id, and the request in the worker's inbox. -/
def enqueue (pool : BranchWorkerPool κ β) (workerId : Nat)
    (request : WorkerExecutionRequest κ β) : BranchWorkerPool κ β :=
  let handle := pool.workers workerId
  { pool.setWorker workerId
      { handle with inQueue := handle.inQueue ++ [(pool.nextRequestId + 1, request)] } with
    nextRequestId := pool.nextRequestId + 1 }

/-- Submit a routed item and keep account of the request. -/
def submit (pool : BranchWorkerPool κ β) (item : WorkItem κ β) (routing : Routing κ β) :
    BranchWorkerPool κ β :=
  let batch := pool.current
  let requestId := pool.nextRequestId + 1
  { pool.enqueue routing.workerId routing.request with
    registry := routing.registry
    batch := some
      { batch with
        workItems := batch.workItems ++ [item]
        pending := batch.pending ++
          [⟨requestId, item, routing.workerId, routing.request.executionMode⟩]
        remaining := batch.remaining ++ [requestId]
        nextBootstrapIndex := routing.nextBootstrapIndex } }

/-- Route one item of a batch and submit it. -/
def sendItem (pool : BranchWorkerPool κ β) (item : WorkItem κ β) : BranchWorkerPool κ β :=
  pool.submit item (routeWorkItem digests item pool.registry pool.workerIds pool.workerGenerations
    pool.current.nextBootstrapIndex)

/-- Route and submit a batch. -/
def sendBatch (pool : BranchWorkerPool κ β) (items : List (WorkItem κ β)) :
    BranchWorkerPool κ β :=
  items.foldl (sendItem digests)
    { pool with batch := some { nextBootstrapIndex := pool.nextBootstrapIndex } }

/-- A worker takes its next request and answers it. -/
def runWorker (pool : BranchWorkerPool κ β) (workerId : Nat) (execution : Execution κ β) :
    BranchWorkerPool κ β :=
  let handle := pool.workers workerId
  match handle.inQueue with
  | [] => pool
  | (requestId, request) :: rest =>
      let (runtime, result) := handle.runtime.execute digests workerId handle.workerGeneration
        request execution
      { pool.setWorker workerId { handle with runtime, inQueue := rest } with
        resultQueue := pool.resultQueue ++ [(requestId, result)] }

/-- The result of a request that is still outstanding is recorded under the id
    of its work item. -/
def record (batch : Batch κ β) (request : PendingRequest κ β) (result : BranchResult κ β) :
    Batch κ β :=
  { batch with
    results := batch.results.set request.workItem.workId (request.requestId, result)
    remaining := batch.remaining.filter (· ≠ request.requestId) }

/-- The outstanding request with this id. -/
def outstanding (batch : Batch κ β) (requestId : Nat) : Option (PendingRequest κ β) :=
  batch.pending.find? fun request =>
    request.requestId = requestId ∧ requestId ∈ batch.remaining

/-- Take the next answer from the result queue. An answer that nothing waits for
    is dropped; a fault that may have tainted its process replaces the worker. -/
def receiveResult (pool : BranchWorkerPool κ β) (batch : Batch κ β) : BranchWorkerPool κ β :=
  match pool.resultQueue with
  | [] => pool
  | (requestId, result) :: rest =>
      match outstanding batch requestId with
      | none => { pool with resultQueue := rest }
      | some request =>
          let pool := { pool with
            resultQueue := rest
            batch := some (record batch request result) }
          match result.status, result.workerId with
          | .fault, some workerId =>
              if isProcessTaintingFault result.diagnostics then pool.respawnWorker workerId
              else pool
          | _, _ => pool

/-- The fault of a request whose wait ran out. -/
def timeoutFault (request : PendingRequest κ β) (staleGeneration : Nat) : BranchResult κ β :=
  faultResult request.executionMode (some request.workerId) (some staleGeneration)
    { faultKind := some "task_timeout"
      exceptionType := some "TimeoutError"
      message := "timed out waiting for worker request " ++ toString request.requestId }

/-- The requests still outstanding. -/
def hungRequests (batch : Batch κ β) : List (PendingRequest κ β) :=
  batch.pending.filter fun request => request.requestId ∈ batch.remaining

/-- Nothing arrived in time: every worker with an outstanding request is replaced
    and its requests end in a fault. -/
def timeOutRequests (pool : BranchWorkerPool κ β) (batch : Batch κ β) : BranchWorkerPool κ β :=
  let hung := hungRequests batch
  let faulted := hung.foldl (fun batch request =>
    record batch request (timeoutFault request (pool.workers request.workerId).workerGeneration))
    batch
  { (hung.map (·.workerId)).dedup.foldl respawnWorker pool with batch := some faulted }

/-- What a result does to the leases. -/
def settleLease (registry : LeaseRegistry) (item : WorkItem κ β) (result : BranchResult κ β) :
    LeaseRegistry :=
  let registry := registry.invalidate item.leaseKey
  match result.status with
  | .success =>
      match result.establishedLease with
      | none => registry
      | some lease => registry.set lease
  | .fault =>
      match result.workerId with
      | none => registry
      | some workerId => registry.invalidateWorker workerId

/-- The loop over the items of a batch that ends it. -/
def settleResults (results : Dict String (Nat × BranchResult κ β)) :
    LeaseRegistry → List (WorkItem κ β) →
      LeaseRegistry × Except PyException (List (BranchResult κ β))
  | registry, [] => (registry, .ok [])
  | registry, item :: rest =>
      match results.get? item.workId with
      | none => (registry, .error ⟨"KeyError", item.workId⟩)
      | some (_, result) =>
          let (registry, settled) := settleResults results (settleLease registry item result) rest
          (registry, settled.map (result :: ·))

/-- What a step returns to the caller of the pool, if anything. -/
abbrev Returned (κ β : Type) := Option (Except PyException (List (BranchResult κ β)))

/-- The leases are settled, and the results returned in the order of the items. -/
def settleBatch (pool : BranchWorkerPool κ β) (batch : Batch κ β) :
    BranchWorkerPool κ β × Returned κ β :=
  let (registry, settled) := settleResults batch.results pool.registry batch.workItems
  ({ pool with
     registry
     batch := none
     nextBootstrapIndex := batch.nextBootstrapIndex }, some settled)

/-- One step of the pool. -/
def step (pool : BranchWorkerPool κ β) (event : PoolEvent κ β) :
    BranchWorkerPool κ β × Returned κ β :=
  match event, pool.batch with
  | .run workerId execution, _ => (pool.runWorker digests workerId execution, none)
  | .dispatch items, none => (pool.sendBatch digests items, none)
  | .respawn workerId withRegistry, none =>
      (if withRegistry then pool.respawnWorker workerId
        else pool.replaceWorker workerId pool.registry, none)
  | .receive, some batch =>
      (if batch.remaining = [] then pool else pool.receiveResult batch, none)
  | .timeOut, some batch =>
      (if batch.remaining = [] then pool else pool.timeOutRequests batch, none)
  | .settle, some batch => if batch.remaining = [] then pool.settleBatch batch else (pool, none)
  | .dispatch _, some _ => (pool, none)
  | .respawn _ _, some _ => (pool, none)
  | .receive, none => (pool, none)
  | .timeOut, none => (pool, none)
  | .settle, none => (pool, none)

/-- The pool as it is built. -/
def start (workerCount : Nat) (workerCount_pos : 0 < workerCount) : BranchWorkerPool κ β :=
  { workerCount, workerCount_pos }

end BranchWorkerPool

end Combat

end STS2RL
