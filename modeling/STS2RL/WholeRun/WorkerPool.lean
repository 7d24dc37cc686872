import STS2RL.Core.Run
import STS2RL.WholeRun.ChoiceWork
import Mathlib.Data.List.Dedup

/-!
# The Whole-Run Worker Pool

`WholeRunWorkerPool` with `dispatch_choice_work_items`: a batch is routed and
submitted, then the call reads the one result queue until every request has an
outcome. A wait that runs out respawns the workers of all requests that are
still open, and each respawn reads the same queue until the new process is ready.

Workers write tuples of three shapes: an answer to a request, `__ready__`, and
`__startup_fault__`. A reader unpacks what it gets as the shape it expects. The
collecting loop expects an answer; a respawn expects one of the other two.

The call is a machine that takes one result of `get` after the other. It keeps a
list of what was read and by whom; no decision reads that, nor the request id
that is stored with a result.

## Main definitions

* `QueueMessage`, `workerStartup`, `choiceReply`, `exploreReply`: What workers write.
* `routeChoiceWorkItem`, `submitBatch`: Routing a batch.
* `DispatchPhase`, `startDispatch`, `dispatchStep`: The call as a machine.
-/

namespace STS2RL

namespace WholeRun

variable {ρ τ ε : Type}

section Messages

/-- The second and third part of an answer. -/
inductive Answer (ρ τ ε : Type) where
  | choice (result : BranchResult ρ τ)
  | exploreOk (result : ε)
  | exploreFault (exceptionType message : String)

/-- The tuples on the result queue, by shape. -/
inductive QueueMessage (ρ τ ε : Type) where
  | answer (requestId : Nat) (answer : Answer ρ τ ε)
  | ready (slot : WorkerSlot) (generation pid : Nat)
  | startupFault (slot : WorkerSlot) (generation : Nat) (exceptionType message : String)

/-- What a worker is sent. -/
inductive PoolRequest (ρ : Type) where
  | choice (request : WorkerExecutionRequest ρ)
  | explore

/-- The first message of a worker: whether its runtime could be built. -/
def workerStartup (slot : WorkerSlot) (generation : Nat) :
    Except PyException Nat → QueueMessage ρ τ ε
  | .error exc => .startupFault slot generation exc.typeName exc.message
  | .ok pid => .ready slot generation pid

/-- The answer to a choice request, from what `execute` returns or raises. -/
def choiceReply (slot : WorkerSlot) (generation pid requestId : Nat)
    (request : WorkerExecutionRequest ρ) :
    Except PyException (BranchResult ρ τ) → QueueMessage ρ τ ε
  | .ok result => .answer requestId (.choice result)
  | .error exc => .answer requestId (.choice
      { status := .fault
        workItem := request.workItem
        executionMode := request.executionMode
        workerSlot := some slot
        workerGeneration := some generation
        pid := some pid
        diagnostics := some ⟨"worker_loop_exception", exc.typeName, exc.message⟩ })

/-- What a worker puts on the queue after a request. -/
def exploreReply (requestId : Nat) : Except PyException ε → QueueMessage ρ τ ε
  | .ok result => .answer requestId (.exploreOk result)
  | .error exc => .answer requestId (.exploreFault exc.typeName exc.message)

/-- A message that a worker of the pool can have written, given what was sent.
    What `execute` returns carries the item it was given. -/
inductive FromWorkers (sent : List (Nat × PoolRequest ρ)) : QueueMessage ρ τ ε → Prop where
  | startup (slot : WorkerSlot) (generation : Nat) (outcome : Except PyException Nat) :
      FromWorkers sent (workerStartup slot generation outcome)
  | choice (slot : WorkerSlot) (generation pid requestId : Nat)
      (request : WorkerExecutionRequest ρ) (outcome : Except PyException (BranchResult ρ τ))
      (hsent : (requestId, .choice request) ∈ sent)
      (hitem : ∀ result, outcome = .ok result → result.workItem = request.workItem) :
      FromWorkers sent (choiceReply slot generation pid requestId request outcome)
  | explore (requestId : Nat) (outcome : Except PyException ε)
      (hsent : (requestId, .explore) ∈ sent) :
      FromWorkers sent (exploreReply requestId outcome)

/-- What `result_queue.get` comes to. -/
inductive QueueEvent (ρ τ ε : Type) where
  | message (message : QueueMessage ρ τ ε)
  | empty

end Messages

/-- The process at a slot. -/
structure WorkerHandle where
  workerGeneration : Nat := 1
  pid : Option Nat := none

/-- The main worker, if there is one, and the branch workers. -/
structure WholeRunWorkerPool where
  includeMainWorker : Bool := true
  branchWorkerCount : Nat
  branchWorkerCount_pos : 0 < branchWorkerCount
  handles : WorkerSlot → WorkerHandle := fun _ => {}
  nextBootstrapIndex : Nat := 0
  nextRequestId : Nat := 0
  closed : Bool := false

namespace WholeRunWorkerPool

/-- `branch_worker_slots`. -/
def branchWorkerSlots (pool : WholeRunWorkerPool) : List WorkerSlot :=
  (List.range pool.branchWorkerCount).map .branch

/-- `worker_slots`: the main worker first. -/
def workerSlots (pool : WholeRunWorkerPool) : List WorkerSlot :=
  (if pool.includeMainWorker then [.main] else []) ++ pool.branchWorkerSlots

/-- The generation of a slot that the pool has. -/
def workerGenerations (pool : WholeRunWorkerPool) (slot : WorkerSlot) : Option Nat :=
  if slot ∈ pool.workerSlots then some (pool.handles slot).workerGeneration else none

/-- `_spawn_worker` of the next generation. -/
def spawnNext (pool : WholeRunWorkerPool) (slot : WorkerSlot) : WholeRunWorkerPool :=
  let handle : WorkerHandle := { workerGeneration := (pool.handles slot).workerGeneration + 1 }
  { pool with handles := Function.update pool.handles slot handle }

/-- The process of a worker, once it is known. -/
def setPid (pool : WholeRunWorkerPool) (slot : WorkerSlot) (pid : Nat) : WholeRunWorkerPool :=
  let handle : WorkerHandle := { pool.handles slot with pid := some pid }
  { pool with handles := Function.update pool.handles slot handle }

@[simp]
theorem workerSlots_spawnNext (pool : WholeRunWorkerPool) (slot : WorkerSlot) :
    (pool.spawnNext slot).workerSlots = pool.workerSlots := rfl

@[simp]
theorem workerSlots_setPid (pool : WholeRunWorkerPool) (slot : WorkerSlot) (pid : Nat) :
    (pool.setPid slot pid).workerSlots = pool.workerSlots := rfl

end WholeRunWorkerPool

section Routing

/-- `_choose_bootstrap_slot`. The list of slots is never empty. -/
def chooseBootstrapSlot (branchSlots : List WorkerSlot) (registry : LeaseRegistry)
    (nextIndex : Nat) : WorkerSlot × Nat :=
  let unleased := branchSlots.filter fun slot => !registry.holdsWorker slot
  let candidates := if unleased ≠ [] then unleased else branchSlots
  (candidates.getD (nextIndex % candidates.length) .main, nextIndex + 1)

/-- The worker a continuation can go to: the given one or the lease's, if the
    lease is of that slot's current generation. -/
def holderOf (item : ChoiceWorkItem ρ) (registry : LeaseRegistry)
    (workerGenerations : WorkerSlot → Option Nat) (holderSlot : Option WorkerSlot) :
    Option (Lease × WorkerSlot) :=
  match registry.get? item.contextId with
  | none => none
  | some lease =>
      let slot := holderSlot.getD lease.workerSlot
      match workerGenerations slot with
      | none => none
      | some generation =>
          if lease.isValidFor item generation then some (lease, slot) else none

/-- `_route_choice_work_item`: the request, its slot, and the next bootstrap
    index, with the registry that the routing leaves. -/
def routeChoiceWorkItem (item : ChoiceWorkItem ρ) (registry : LeaseRegistry)
    (branchSlots : List WorkerSlot) (workerGenerations : WorkerSlot → Option Nat)
    (nextBootstrapIndex : Nat) (holderSlot : Option WorkerSlot) :
    LeaseRegistry × Except PyException (WorkerExecutionRequest ρ × WorkerSlot × Nat) :=
  if item.workKind = .continuation then
    match holderOf item registry workerGenerations holderSlot with
    | some (lease, slot) =>
        (registry, .ok (⟨item, .holderStep, some lease⟩, slot, nextBootstrapIndex))
    | none =>
        (match registry.get? item.contextId with
          | none => registry
          | some lease => registry.invalidateLease lease,
          .error (.runtimeError ("no valid Lease/Holder for continuation context_id='" ++
            item.contextId ++ "'")))
  else
    let (slot, nextBootstrapIndex) := chooseBootstrapSlot branchSlots registry nextBootstrapIndex
    (if registry.holdsWorker slot then registry.invalidateWorkerAllGenerations slot else registry,
      .ok (⟨item, .bootstrapStep, none⟩, slot, nextBootstrapIndex))

end Routing

/-- A request of the batch: `pending`, `pending_slots` and
    `pending_execution_modes` of it. -/
structure Submission (ρ : Type) where
  requestId : Nat
  slot : WorkerSlot
  request : WorkerExecutionRequest ρ

/-- Who reads the queue. -/
inductive Reader where
  | collecting
  | awaiting (slot : WorkerSlot)

/-- A message that was read, by whom, and the requests that were open then. -/
structure Read (ρ τ ε : Type) where
  reader : Reader
  message : QueueMessage ρ τ ε
  outstanding : List Nat

/-- The variables of a call. -/
structure DispatchCall (ρ τ ε : Type) where
  pool : WholeRunWorkerPool
  registry : LeaseRegistry
  nextBootstrapIndex : Nat
  submissions : List (Submission ρ) := []
  remaining : List Nat := []
  results : Dict String (Nat × Answer ρ τ ε) := Dict.empty
  reads : List (Read ρ τ ε) := []

/-- Where a call stands: it collects answers, it awaits the process that it
    started at a slot, with the slots that are to be respawned after it, or it is
    over. -/
inductive DispatchPhase (ρ τ ε : Type) where
  | collecting (call : DispatchCall ρ τ ε)
  | respawning (call : DispatchCall ρ τ ε) (slot : WorkerSlot) (staleGeneration : Nat)
      (hungSlots : List WorkerSlot)
  | returned (call : DispatchCall ρ τ ε) (outcomes : List (Nat × BranchResult ρ τ))
  | raised (call : DispatchCall ρ τ ε) (exc : PyException)

section Dispatch

/-- Route and submit one item. -/
def submitItem (holderSlots : String → Option WorkerSlot) (call : DispatchCall ρ τ ε)
    (item : ChoiceWorkItem ρ) : DispatchCall ρ τ ε × Except PyException Unit :=
  match routeChoiceWorkItem item call.registry call.pool.branchWorkerSlots
      call.pool.workerGenerations call.nextBootstrapIndex (holderSlots item.workId) with
  | (registry, .error exc) => ({ call with registry }, .error exc)
  | (registry, .ok (request, slot, nextBootstrapIndex)) =>
      let call := { call with registry, nextBootstrapIndex }
      if call.pool.closed then (call, .error (.runtimeError "WholeRunWorkerPool is closed"))
      else
        let requestId := call.pool.nextRequestId + 1
        ({ call with
           pool := { call.pool with nextRequestId := requestId }
           submissions := call.submissions ++ [⟨requestId, slot, request⟩]
           remaining := call.remaining ++ [requestId] }, .ok ())

/-- The items are submitted in order, and the first that cannot be ends the batch. -/
def submitBatch (holderSlots : String → Option WorkerSlot) :
    DispatchCall ρ τ ε → List (ChoiceWorkItem ρ) → DispatchCall ρ τ ε × Except PyException Unit
  | call, [] => (call, .ok ())
  | call, item :: rest =>
      match submitItem holderSlots call item with
      | (call, .error exc) => (call, .error exc)
      | (call, .ok ()) => submitBatch holderSlots call rest

/-- What a result does to the leases. -/
def settleLease (registry : LeaseRegistry) (item : ChoiceWorkItem ρ) (result : BranchResult ρ τ) :
    LeaseRegistry :=
  let registry := registry.invalidate item.contextId
  match result.status, result.establishedLease, result.workerSlot with
  | .success, some lease, _ => registry.set lease
  | .success, none, _ => registry
  | .fault, _, some slot => registry.invalidateWorkerAllGenerations slot
  | .fault, _, none => registry

/-- The outcomes in the order of the items. -/
def gatherResults (results : Dict String (Nat × Answer ρ τ ε)) :
    LeaseRegistry → List (ChoiceWorkItem ρ) →
      LeaseRegistry × Except PyException (List (Nat × BranchResult ρ τ))
  | registry, [] => (registry, .ok [])
  | registry, item :: rest =>
      match results.get? item.workId with
      | none => (registry, .error ⟨"KeyError", "'" ++ item.workId ++ "'"⟩)
      | some (requestId, .choice result) =>
          let (registry, outcomes) := gatherResults results (settleLease registry item result) rest
          (registry, outcomes.map ((requestId, result) :: ·))
      | some (_, .exploreOk _) => (registry.invalidate item.contextId,
          .error ⟨"AttributeError", "'ExploreResult' object has no attribute 'status'"⟩)
      | some (_, .exploreFault _ _) => (registry.invalidate item.contextId,
          .error ⟨"AttributeError", "'tuple' object has no attribute 'status'"⟩)

/-- The answers are gathered in the order of the items. -/
def finishDispatch (call : DispatchCall ρ τ ε) : DispatchPhase ρ τ ε :=
  match gatherResults call.results call.registry (call.submissions.map (·.request.workItem)) with
  | (registry, .error exc) => .raised { call with registry } exc
  | (registry, .ok outcomes) =>
      .returned { call with
        registry
        pool := { call.pool with nextBootstrapIndex := call.nextBootstrapIndex } } outcomes

/-- The head of the loop. -/
def loopHead (call : DispatchCall ρ τ ε) : DispatchPhase ρ τ ε :=
  if call.remaining = [] then finishDispatch call else .collecting call

/-- The call up to its first `get`. -/
def startDispatch (pool : WholeRunWorkerPool) (registry : LeaseRegistry)
    (holderSlots : String → Option WorkerSlot) (items : List (ChoiceWorkItem ρ)) :
    DispatchPhase ρ τ ε :=
  match submitBatch holderSlots { pool, registry, nextBootstrapIndex := pool.nextBootstrapIndex }
      items with
  | (call, .error exc) => .raised call exc
  | (call, .ok ()) => loopHead call

/-- The open requests of a slot, in the order of the batch. -/
def openAt (call : DispatchCall ρ τ ε) (slot : WorkerSlot) : List (Submission ρ) :=
  call.submissions.filter fun submission =>
    submission.requestId ∈ call.remaining ∧ submission.slot = slot

/-- The result of a request that was not answered in time. -/
def requestTimeout (submission : Submission ρ) (staleGeneration : Nat) : BranchResult ρ τ :=
  faultResult submission.request.workItem submission.request.executionMode submission.slot
    (some staleGeneration) "task_timeout"
    ⟨"TimeoutError", "timed out waiting for worker request " ++ toString submission.requestId⟩

/-- One open request of a respawned worker ends in a fault. -/
def timeOut (staleGeneration : Nat) (call : DispatchCall ρ τ ε) (submission : Submission ρ) :
    DispatchCall ρ τ ε :=
  { call with
    results := call.results.set submission.request.workItem.workId
      (submission.requestId, .choice (requestTimeout submission staleGeneration))
    remaining := call.remaining.erase submission.requestId }

/-- Start the next respawn, or go back to the head of the loop. -/
def respawnNext (call : DispatchCall ρ τ ε) : List WorkerSlot → DispatchPhase ρ τ ε
  | [] => loopHead call
  | slot :: rest =>
      .respawning { call with pool := call.pool.spawnNext slot } slot
        (call.pool.handles slot).workerGeneration rest

/-- The new process of a slot is ready: the leases of the old one go, and its
    open requests end. -/
def respawned (call : DispatchCall ρ τ ε) (slot : WorkerSlot) (staleGeneration : Nat)
    (hungSlots : List WorkerSlot) : DispatchPhase ρ τ ε :=
  let call := { call with
    registry := call.registry.invalidateWorkerGeneration slot staleGeneration }
  respawnNext ((openAt call slot).foldl (timeOut staleGeneration) call) hungSlots

/-- A message was taken from the queue. -/
def DispatchCall.noteRead (call : DispatchCall ρ τ ε) (reader : Reader)
    (message : QueueMessage ρ τ ε) : DispatchCall ρ τ ε :=
  { call with reads := call.reads ++ [⟨reader, message, call.remaining⟩] }

/-- The slots of the open requests, as a set. -/
def hungSlots (submissions : List (Submission ρ)) (remaining : List Nat) : List WorkerSlot :=
  ((submissions.filter (·.requestId ∈ remaining)).map (·.slot)).dedup

/-- One message to the collecting loop, which unpacks three values. -/
def collectMessage (call : DispatchCall ρ τ ε) (message : QueueMessage ρ τ ε) :
    DispatchPhase ρ τ ε :=
  let call := call.noteRead .collecting message
  match message with
  | .ready _ _ _ => .raised call (.valueError "too many values to unpack (expected 3)")
  | .startupFault _ _ _ _ => .raised call (.valueError "too many values to unpack (expected 3)")
  | .answer requestId answer =>
      match call.submissions.find? (·.requestId = requestId) with
      | none => .collecting call
      | some submission =>
          if requestId ∈ call.remaining then
            loopHead { call with
              results := call.results.set submission.request.workItem.workId (requestId, answer)
              remaining := call.remaining.erase requestId }
          else .collecting call

/-- One message to `_await_ready`, which unpacks four values unless it is told of
    a start that failed. -/
def awaitMessage (call : DispatchCall ρ τ ε) (slot : WorkerSlot) (staleGeneration : Nat)
    (hungSlots : List WorkerSlot) (message : QueueMessage ρ τ ε) : DispatchPhase ρ τ ε :=
  let call := call.noteRead (.awaiting slot) message
  match message with
  | .answer _ _ => .raised call (.valueError "not enough values to unpack (expected 4, got 3)")
  | .startupFault faulty generation exceptionType message =>
      .raised call (.runtimeError ("worker " ++ faulty.text ++ " gen " ++ toString generation ++
        " failed to start: " ++ exceptionType ++ ": " ++ message))
  | .ready readySlot _ pid =>
      if readySlot ∈ call.pool.workerSlots then
        let call := { call with pool := call.pool.setPid readySlot pid }
        if readySlot = slot then respawned call slot staleGeneration hungSlots
        else .respawning call slot staleGeneration hungSlots
      else .raised call ⟨"KeyError", readySlot.text⟩

/-- The order in which a set of slots is gone through. -/
structure SetOrder where
  order : List WorkerSlot → List WorkerSlot
  perm : ∀ slots, (order slots).Perm slots

/-- The call from one `get` to the next. -/
def dispatchStep (setOrder : SetOrder) (phase : DispatchPhase ρ τ ε)
    (event : QueueEvent ρ τ ε) : DispatchPhase ρ τ ε × Unit :=
  match phase, event with
  | .collecting call, .message message => (collectMessage call message, ())
  | .collecting call, .empty =>
      (respawnNext call (setOrder.order (hungSlots call.submissions call.remaining)), ())
  | .respawning call slot staleGeneration rest, .message message =>
      (awaitMessage call slot staleGeneration rest message, ())
  | .respawning call _ _ _, .empty => (.raised call ⟨"Empty", ""⟩, ())
  | .returned call outcomes, _ => (.returned call outcomes, ())
  | .raised call exc, _ => (.raised call exc, ())

end Dispatch

end WholeRun

end STS2RL
