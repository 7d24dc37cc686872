import STS2RL.Combat.BranchManager
import Mathlib.Algebra.Order.Field.Rat

/-!
# Polling Branches

`BranchManager.poll`: run the selected queued branches and wait for their
results.

The poll is a machine that takes one answer of `result_queue.get` after the
other: a message, a wait that ran out, or an exception. Between two answers it
fills every free worker. When a branch is submitted, and what a dispatch raises,
is up to the schedule. Nothing is assumed of the messages; one whose request id
is not expected is dropped.

The four tables of the source that are keyed by a request or by its worker are
always changed together. They are one list here, with a row for each request
that was sent and not answered.

`PollState.sent` records what was sent. No decision reads it.

## Main definitions

* `PollSchedule`, `PollEvent`: What the poll does not decide itself.
* `admitPolled`: The branches a poll runs.
* `dispatchAvailable`: Filling the free workers.
* `PollPhase`, `pollStart`, `pollStep`: The poll as a machine.
-/

namespace STS2RL

namespace Combat

variable {κ β : Type}

/-- A request that was sent and not answered: `running_by_request_id`,
    `request_worker_ids`, `worker_request_ids` and `worker_deadlines` of it. -/
structure Outstanding where
  requestId : Nat
  branchId : String
  workerId : Nat
  deadline : ℚ
  deriving DecidableEq

/-- The time limit, when each request is submitted, and what the dispatch of a
    request raises. -/
structure PollSchedule where
  timeout : ℚ
  submittedAt : Nat → ℚ
  dispatchRaises : Nat → Option PyException

/-- What `result_queue.get` comes to. -/
inductive PollEvent (κ β : Type) where
  | result (requestId : Nat) (result : BranchResult κ β)
  | empty (now : ℚ)
  | raised (exc : PyException)

/-- The locals of `poll`, and the manager. -/
structure PollState (κ β : Type) where
  manager : BranchManager κ β
  waiting : List String
  running : List Outstanding := []
  results : Dict String (BranchResult κ β) := Dict.empty
  sent : List (Nat × String) := []

/-- A poll that goes on, or how it ended. -/
inductive PollPhase (κ β : Type) where
  | polling (st : PollState κ β)
  | returned (st : PollState κ β)
  | raised (st : PollState κ β) (exc : PyException)

/-- The poll is over. -/
def PollPhase.Ended : PollPhase κ β → Prop
  | polling _ => False
  | returned _ => True
  | raised _ _ => True

namespace BranchManager

section Admission

/-- The selected branches: each must be known and queued, repeated ids count once. -/
def admitSelected (manager : BranchManager κ β) :
    (pollBranchIds : List String) → List String → Except PyException (List String)
  | pollBranchIds, [] => .ok pollBranchIds
  | pollBranchIds, branchId :: rest =>
      if branchId ∈ pollBranchIds then manager.admitSelected pollBranchIds rest
      else
        match manager.records.get? branchId with
        | none => .error (unknownBranch branchId)
        | some record =>
            if record.state ≠ .queued then
              .error (.runtimeError
                ("Branch " ++ branchId ++ " must be queued when explicitly polled, got state='" ++
                  record.state.text ++ "'"))
            else manager.admitSelected (pollBranchIds ++ [branchId]) rest

/-- The branches that a poll runs: the selected ones, or all that are queued. -/
def admitPolled (manager : BranchManager κ β) (timeout : ℚ) (branchIds : Option (List String)) :
    Except PyException (List String) :=
  if timeout ≤ 0 then .error (.valueError "timeout must be positive")
  else
    match branchIds with
    | none => .ok ((manager.records.entries.filter (·.2.state = .queued)).map (·.1))
    | some branchIds => manager.admitSelected [] branchIds

end Admission

variable (digests : Digests κ) (schedule : PollSchedule)

section Dispatch

/-- The workers that run nothing. -/
def freeWorkers (st : PollState κ β) : List Nat :=
  st.manager.pool.workerIds.filter fun workerId => workerId ∉ st.running.map (·.workerId)

/-- A continuation whose holder is busy waits for it. -/
def awaitsHolder (pool : BranchWorkerPool κ β) (freeWorkerIds : List Nat) (item : WorkItem κ β) :
    Bool :=
  match coveringLease digests item pool.registry pool.workerGenerations with
  | none => false
  | some lease => lease.workerId ∉ freeWorkerIds

/-- A routed branch is on its worker. -/
def launch (st : PollState κ β) (branchId : String) (record : BranchRecord κ β)
    (routing : Routing κ β) : PollState κ β :=
  let manager := st.manager
  let requestId := manager.pool.nextRequestId + 1
  { st with
    manager := { manager.setRecord branchId
        { record with
          state := .running
          workerId := some routing.workerId
          workerGeneration := some (manager.pool.workers routing.workerId).workerGeneration
          requestId := some requestId
          executionMode := some routing.request.executionMode } with
      pool := { manager.pool.enqueue routing.workerId routing.request with
        registry := routing.registry }
      requestIdToBranchId := manager.requestIdToBranchId.set requestId branchId
      nextBootstrapIndex := routing.nextBootstrapIndex }
    waiting := st.waiting.erase branchId
    running := st.running ++
      [⟨requestId, branchId, routing.workerId, schedule.submittedAt requestId + schedule.timeout⟩]
    sent := st.sent ++ [(requestId, branchId)] }

/-- Route and submit one branch. On an exception the registry and the bootstrap
    index are put back. -/
def dispatchBranch (st : PollState κ β) (freeWorkerIds : List Nat) (branchId : String)
    (record : BranchRecord κ β) (item : WorkItem κ β) : PollState κ β × Except PyException Unit :=
  let pool := st.manager.pool
  let routing := routeWorkItem digests item pool.registry freeWorkerIds pool.workerGenerations
    st.manager.nextBootstrapIndex
  if routing.workerId ∉ freeWorkerIds then
    (st, .error (.runtimeError ("routing selected busy worker " ++ toString routing.workerId ++
      " for Branch " ++ branchId)))
  else
    match schedule.dispatchRaises (pool.nextRequestId + 1) with
    | some exc => (st, .error exc)
    | none => (launch schedule st branchId record routing, .ok ())

/-- Dispatch the first waiting branch that can be. The flag says whether one was. -/
def dispatchFirst (freeWorkerIds : List Nat) :
    PollState κ β → List String → PollState κ β × Except PyException Bool
  | st, [] => (st, .ok false)
  | st, branchId :: rest =>
      match st.manager.records.get? branchId with
      | none => (st, .error ⟨"KeyError", branchId⟩)
      | some record =>
          if record.state ≠ .queued then
            dispatchFirst freeWorkerIds { st with waiting := st.waiting.erase branchId } rest
          else
            match record.workItem with
            | none =>
                (st, .error (.runtimeError ("queued Branch " ++ branchId ++ " has no WorkItem")))
            | some item =>
                if awaitsHolder digests st.manager.pool freeWorkerIds item then
                  dispatchFirst freeWorkerIds st rest
                else
                  let (st, outcome) :=
                    dispatchBranch digests schedule st freeWorkerIds branchId record item
                  (st, outcome.map fun _ => true)

/-- `_dispatch_available`. Every round takes a branch off the waiting list, so
    there are never more rounds than waiting branches. -/
def dispatchRounds : Nat → PollState κ β → PollState κ β × Except PyException Unit
  | 0, st => (st, .ok ())
  | fuel + 1, st =>
      if st.waiting = [] ∨ freeWorkers st = [] then (st, .ok ())
      else
        match dispatchFirst digests schedule (freeWorkers st) st st.waiting with
        | (st, .error exc) => (st, .error exc)
        | (st, .ok false) => (st, .ok ())
        | (st, .ok true) => dispatchRounds fuel st

/-- `_dispatch_available`. -/
def dispatchAvailable (st : PollState κ β) : PollState κ β × Except PyException Unit :=
  dispatchRounds digests schedule st.waiting.length st

end Dispatch

section Answers

/-- A request is not outstanding any more. -/
def forget (st : PollState κ β) (slot : Outstanding) : PollState κ β :=
  { st with
    manager := { st.manager with
      requestIdToBranchId := st.manager.requestIdToBranchId.erase slot.requestId }
    running := st.running.filter (·.requestId ≠ slot.requestId) }

/-- The error of a branch without an item. -/
def missingItem (branchId : String) : PyException :=
  .runtimeError ("active Branch " ++ branchId ++ " has no WorkItem")

/-- The answer to an outstanding request. A branch that was discarded meanwhile
    keeps its state. -/
def complete (st : PollState κ β) (slot : Outstanding) (result : BranchResult κ β) :
    PollState κ β × Except PyException Unit :=
  let st := forget st slot
  match st.manager.records.get? slot.branchId with
  | none => (st, .error ⟨"KeyError", slot.branchId⟩)
  | some record =>
      if record.state.isDiscarded then (st, .ok ())
      else
        match record.workItem with
        | none => (st, .error (missingItem slot.branchId))
        | some item =>
            ({ st with
               manager := st.manager.finish slot.branchId record item result
               results := st.results.set slot.branchId result }, .ok ())

/-- The fault of a branch whose deadline passed. -/
def branchTimeout (branchId : String) (executionMode : ExecutionMode) (workerId : Nat)
    (staleGeneration : Option Nat) : BranchResult κ β :=
  faultResult executionMode (some workerId) staleGeneration
    { faultKind := some "task_timeout"
      exceptionType := some "TimeoutError"
      message := "timed out waiting for Branch " ++ branchId }

/-- A request whose deadline passed: its worker is replaced, and the branch ends
    in a fault. -/
def expire (st : PollState κ β) (slot : Outstanding) : PollState κ β × Except PyException Unit :=
  let st := forget st slot
  match st.manager.records.get? slot.branchId with
  | none => (st, .error ⟨"KeyError", slot.branchId⟩)
  | some record =>
      if record.state.isDiscarded then (st, .ok ())
      else
        match record.workItem with
        | none => (st, .error (.runtimeError ("running Branch " ++ slot.branchId ++
            " has no WorkItem")))
        | some item =>
            let fault := branchTimeout slot.branchId (record.executionMode.getD .bootstrapStep)
              slot.workerId (st.manager.pool.workerGenerations slot.workerId)
            let respawned : BranchManager κ β :=
              { st.manager with pool := st.manager.pool.respawnWorker slot.workerId }
            ({ st with
               manager := respawned.finish slot.branchId record item fault
               results := st.results.set slot.branchId fault }, .ok ())

/-- The requests are looked at in order, and the first that raises ends the poll. -/
def expireAll : PollState κ β → List Outstanding → PollState κ β × Except PyException Unit
  | st, [] => (st, .ok ())
  | st, slot :: rest =>
      match expire st slot with
      | (st, .error exc) => (st, .error exc)
      | (st, .ok ()) => expireAll st rest

/-- What follows an answer, unless it raised. -/
def thenDispatch : PollState κ β × Except PyException Unit → PollState κ β × Except PyException Unit
  | (st, .error exc) => (st, .error exc)
  | (st, .ok ()) => dispatchAvailable digests schedule st

/-- The body of the loop after `result_queue.get`. -/
def onEvent (st : PollState κ β) : PollEvent κ β → PollState κ β × Except PyException Unit
  | .raised exc => (st, .error exc)
  | .result requestId result =>
      match st.running.find? (·.requestId = requestId) with
      | none => (st, .ok ())
      | some slot => thenDispatch digests schedule (complete st slot result)
  | .empty now =>
      thenDispatch digests schedule (expireAll st (st.running.filter (·.deadline ≤ now)))

end Answers

section Loop

variable (admitted : List String)

/-- The handler of the poll. -/
def abandon (st : PollState κ β) (exc : PyException) : PollPhase κ β :=
  .raised { st with manager := st.manager.quarantine admitted } exc

/-- The head of the loop. -/
def loopHead (st : PollState κ β) : PollPhase κ β :=
  if st.waiting = [] ∧ st.running = [] then .returned st
  else if st.running = [] then
    match dispatchAvailable digests schedule st with
    | (st, .error exc) => abandon admitted st exc
    | (st, .ok ()) =>
        if st.running = [] then
          abandon admitted st
            (.runtimeError "queued Branches could not be routed to any worker")
        else .polling st
  else .polling st

/-- A poll goes on, or is abandoned. -/
def advance : PollState κ β × Except PyException Unit → PollPhase κ β
  | (st, .error exc) => abandon admitted st exc
  | (st, .ok ()) => loopHead digests schedule admitted st

/-- The poll of admitted branches up to its first wait. -/
def pollStart (manager : BranchManager κ β) : PollPhase κ β :=
  advance digests schedule admitted
    (dispatchAvailable digests schedule { manager, waiting := admitted })

/-- The poll from one wait to the next. -/
def pollStep (phase : PollPhase κ β) (event : PollEvent κ β) : PollPhase κ β × Unit :=
  match phase with
  | .polling st => (advance digests schedule admitted (onEvent digests schedule st event), ())
  | .returned st => (.returned st, ())
  | .raised st exc => (.raised st exc, ())

end Loop

end BranchManager

end Combat

end STS2RL
