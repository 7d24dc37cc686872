import STS2RL.Core.Except

/-!
# The Fault Taxonomy

How a failed branch execution is named, and what happens to its work item.

A worker reports a failure by a diagnostic. `classifyFault` maps it to one of
the nine kinds of the taxonomy, `workerReusePolicy` says whether the worker may
be used again, and `decideRetry` moves the work item on. A decision is refused
for a negative retry budget and for an item that is already final; these are the
two places where the retry loop can fail.

## Main definitions

* `FaultKind`, `classifyFault`: The taxonomy and the diagnostics it names.
* `WorkItemAttempt`: Where a work item stands.
* `decideRetry`: The next state of a work item after a fault.

## Theorems

* `classifyFault_name`: Every kind of the taxonomy is classified as itself.
* `decideRetry_eq_ok`: When a retry is decided, and what is decided.
* `decideRetry_final`: A final work item is never decided again.
-/

namespace STS2RL

namespace Combat

/-- `BRANCH_FAULT_KINDS`. -/
inductive FaultKind where
  | validationRejection
  | replayMismatch
  | postTeardownRestoreFailure
  | actionFault
  | taskTimeout
  | workerProcessCrash
  | depthCapExceeded
  | zeroCandidates
  | snapshotMoveMissing
  deriving DecidableEq, Repr

/-- The text a kind is reported by. -/
def FaultKind.name : FaultKind → String
  | validationRejection => "validation_rejection"
  | replayMismatch => "replay_mismatch"
  | postTeardownRestoreFailure => "post_teardown_restore_failure"
  | actionFault => "action_fault"
  | taskTimeout => "task_timeout"
  | workerProcessCrash => "worker_process_crash"
  | depthCapExceeded => "depth_cap_exceeded"
  | zeroCandidates => "zero_candidates"
  | snapshotMoveMissing => "snapshot_restore_missing_monster_move"

/-- The part of a result's diagnostics that is read: the kind and the exception
    type by classification, the texts by the test for a tainted process. -/
structure Diagnostics where
  faultKind : Option String := none
  exceptionType : Option String := none
  message : String := ""
  traceback : String := ""
  deriving DecidableEq, Repr

/-- `_FAULT_BY_EXCEPTION_TYPE`. -/
def faultByExceptionType : List (String × FaultKind) :=
  [("SnapshotRestoreRejectedError", .validationRejection),
    ("SnapshotRestoreFailedError", .postTeardownRestoreFailure),
    ("SnapshotRestoreMissingMoveError", .snapshotMoveMissing),
    ("ActionExecutionError", .actionFault),
    ("FaultedCombatSessionError", .actionFault),
    ("QuiescentBoundaryViolation", .actionFault),
    ("TimeoutError", .taskTimeout),
    ("NoViableCandidates", .zeroCandidates)]

/-- `_FAULT_BY_DIAGNOSTIC_KIND`. -/
def faultByDiagnosticKind : List (String × FaultKind) :=
  [("validation_rejection", .validationRejection),
    ("snapshot_restore_rejected", .validationRejection),
    ("SnapshotRestoreRejectedError", .validationRejection),
    ("replay_mismatch", .replayMismatch),
    ("post_teardown_restore_failure", .postTeardownRestoreFailure),
    ("snapshot_restore_failed", .postTeardownRestoreFailure),
    ("SnapshotRestoreFailedError", .postTeardownRestoreFailure),
    ("snapshot_restore_missing_monster_move", .snapshotMoveMissing),
    ("SnapshotRestoreMissingMoveError", .snapshotMoveMissing),
    ("action_fault", .actionFault),
    ("worker_exception", .actionFault),
    ("task_timeout", .taskTimeout),
    ("timeout", .taskTimeout),
    ("worker_process_crash", .workerProcessCrash),
    ("process_crash", .workerProcessCrash),
    ("depth_cap_exceeded", .depthCapExceeded),
    ("zero_candidates", .zeroCandidates),
    ("no_viable_candidates", .zeroCandidates)]

/-- `classify_fault` of a diagnostics dict. An exception type the taxonomy does
    not know, without a known kind beside it, counts as an action fault. -/
def classifyFault (diagnostics : Diagnostics) : Except PyException FaultKind :=
  match diagnostics.exceptionType.bind (List.lookup · faultByExceptionType) with
  | some kind => .ok kind
  | none =>
      match diagnostics.faultKind.bind (List.lookup · faultByDiagnosticKind) with
      | some kind => .ok kind
      | none =>
          if diagnostics.exceptionType.getD "" ≠ "" then .ok .actionFault
          else .error (.valueError "cannot classify diagnostics without fault_kind/exception_type")

/-- Every kind of the taxonomy is classified as itself. -/
theorem classifyFault_name (kind : FaultKind) :
    classifyFault { faultKind := some kind.name } = .ok kind := by
  cases kind <;> rfl

/-- Whether a worker may be used again after a fault. -/
inductive WorkerReusePolicy where
  | reuseSafe
  | forceRestart
  deriving DecidableEq, Repr

/-- Only a request that was refused leaves its worker as it was. -/
def workerReusePolicy : FaultKind → WorkerReusePolicy
  | .validationRejection => .reuseSafe
  | _ => .forceRestart

/-- Where an item of work stands. -/
inductive WorkItemState where
  | running
  | retrying
  | finalSuccess
  | finalFault
  deriving DecidableEq, Repr

/-- A state's text. -/
def WorkItemState.name : WorkItemState → String
  | running => "Running"
  | retrying => "Retrying"
  | finalSuccess => "FinalSuccess"
  | finalFault => "FinalFault"

/-- The work has ended. -/
def WorkItemState.isFinal : WorkItemState → Bool
  | finalSuccess => true
  | finalFault => true
  | running => false
  | retrying => false

/-- Where a work item stands. Worker generations count from one. -/
structure WorkItemAttempt where
  workId : String
  attemptCount : Nat := 0
  state : WorkItemState := .running
  workerGeneration : Nat := 1
  workerGeneration_pos : 1 ≤ workerGeneration := by decide
  deriving DecidableEq

/-- What is done about a fault. -/
structure RetryDecision where
  nextState : WorkItemState
  policy : WorkerReusePolicy
  shouldRetry : Bool
  workerGeneration : Nat
  attemptCount : Nat
  workerGeneration_pos : 1 ≤ workerGeneration
  deriving DecidableEq

/-- A worker that is started again is of the next generation. -/
def nextGeneration (attempt : WorkItemAttempt) (policy : WorkerReusePolicy) : Nat :=
  if policy = .forceRestart then attempt.workerGeneration + 1 else attempt.workerGeneration

theorem nextGeneration_pos (attempt : WorkItemAttempt) (policy : WorkerReusePolicy) :
    1 ≤ nextGeneration attempt policy := by
  have hpos := attempt.workerGeneration_pos
  unfold nextGeneration
  split <;> omega

/-- What is decided of an attempt that may be decided. -/
def retryDecision (attempt : WorkItemAttempt) (kind : FaultKind) (maxRetries : Int) :
    RetryDecision :=
  let shouldRetry := decide (((attempt.attemptCount + 1 : Nat) : Int) ≤ maxRetries)
  { nextState := if shouldRetry then .retrying else .finalFault
    policy := workerReusePolicy kind
    shouldRetry
    workerGeneration := nextGeneration attempt (workerReusePolicy kind)
    attemptCount := attempt.attemptCount + 1
    workerGeneration_pos := nextGeneration_pos attempt (workerReusePolicy kind) }

/-- `decide_retry`. -/
def decideRetry (attempt : WorkItemAttempt) (kind : FaultKind) (maxRetries : Int) :
    Except PyException RetryDecision :=
  if maxRetries < 0 then .error (.valueError "max_retries must be non-negative")
  else if attempt.state.isFinal then
    .error (.valueError ("cannot retry from final WorkItem state '" ++ attempt.state.name ++ "'"))
  else .ok (retryDecision attempt kind maxRetries)

theorem decideRetry_eq_ok (attempt : WorkItemAttempt) (kind : FaultKind) (maxRetries : Int)
    (hbudget : 0 ≤ maxRetries) (hstate : attempt.state.isFinal = false) :
    decideRetry attempt kind maxRetries = .ok (retryDecision attempt kind maxRetries) := by
  unfold decideRetry
  rw [if_neg (by omega), hstate]
  rfl

/-- A final work item is never decided again. -/
theorem decideRetry_final (attempt : WorkItemAttempt) (kind : FaultKind) (maxRetries : Int)
    (hstate : attempt.state.isFinal = true) :
    ∃ e, decideRetry attempt kind maxRetries = .error e := by
  unfold decideRetry
  by_cases hbudget : maxRetries < 0
  · exact ⟨_, if_pos hbudget⟩
  · rw [if_neg hbudget, if_pos hstate]
    exact ⟨_, rfl⟩

/-- A negative retry budget decides nothing. -/
theorem decideRetry_negative (attempt : WorkItemAttempt) (kind : FaultKind) (maxRetries : Int)
    (hbudget : maxRetries < 0) :
    ∃ e, decideRetry attempt kind maxRetries = .error e := by
  unfold decideRetry
  rw [if_pos hbudget]
  exact ⟨_, rfl⟩

end Combat

end STS2RL
