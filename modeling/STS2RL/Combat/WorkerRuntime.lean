import STS2RL.Combat.BranchResult
import Mathlib.Data.List.Infix

/-!
# The Branch Worker

`_WorkerRuntime`: what a worker process holds between two requests, and how it
executes one.

A worker retains at most one pending decision, the one its last request ended
at. Every request either replaces it, when it ends pending too, or clears it. A
holder step goes on from the retained decision and is refused when that is not
the one its lease names; a bootstrap step replays the context of its work item
and does not look at what is retained.

The combat session is outside. `Execution` is what it answers while one request
runs, and every answer may be an exception.

## Main definitions

* `Execution`: What the session answers during one request.
* `WorkerRuntime`: The retained decision and the epoch.
* `WorkerRuntime.execute`: One request.
* `isProcessTaintingFault`: The faults after which a process is replaced.

## Theorems

* `holderState_of_holds`: A worker that holds what the lease names goes on from it.
* `execute_spec`: A result names its worker, which holds what a lease it
  establishes names.
-/

namespace STS2RL

namespace Combat

variable {κ β : Type}

/-- An exception as a worker reports it. -/
structure WorkerException where
  typeName : String
  message : String := ""
  traceback : String := ""
  faultKind : Option String := none

/-- The diagnostics of `_fault_result`. -/
def WorkerException.diagnostics (exc : WorkerException) : Diagnostics :=
  { faultKind := some (if exc.faultKind.getD "" = "" then "worker_exception"
      else exc.faultKind.getD "")
    exceptionType := some exc.typeName
    message := exc.message
    traceback := exc.traceback }

/-- A `RuntimeError` in a worker. -/
def WorkerException.runtimeError (message : String) : WorkerException :=
  { typeName := "RuntimeError", message }

/-- A text has another in it. -/
def hasText (text part : String) : Bool := decide (part.toList <:+: text.toList)

/-- `_is_process_tainting_fault`. -/
def isProcessTaintingFault (diagnostics : Diagnostics) : Bool :=
  let text := diagnostics.exceptionType.getD "" ++ "\n" ++ diagnostics.message ++ "\n" ++
    diagnostics.traceback
  hasText text "NullReferenceException" &&
    (hasText text "EndCombatInternal" || hasText text "CheckWinCondition")

/-- What `replay_decision_context` comes to. -/
inductive ReplayAnswer (β : Type) where
  | success (finalState : BattleState β)
  | mismatch (message : String)
  | raised (exc : WorkerException)

/-- What the session answers while one request runs. -/
structure Execution (κ β : Type) where
  replay : ReplayAnswer β
  legalActions : Except WorkerException (List LegalAction)
  step : Except WorkerException (BattleState β)
  capture : Except WorkerException κ
  outcome : String
  pipeline : Except WorkerException Unit

/-- What is sent to a worker. -/
structure WorkerExecutionRequest (κ β : Type) where
  workItem : WorkItem κ β
  executionMode : ExecutionMode
  expectedLease : Option Lease := none

/-- The pending decision a worker retains. -/
structure HeldDecision (β : Type) where
  currentState : BattleState β
  currentContextId : String
  currentHypothesisId : Option String

/-- A worker's state: the decision it holds, and how often it changed. -/
structure WorkerRuntime (β : Type) where
  held : Option (HeldDecision β) := none
  stateEpoch : Nat := 0

/-- A context id as it is printed in a message. -/
def reprOrNone : Option String → String
  | none => "None"
  | some text => "'" ++ text ++ "'"

namespace WorkerRuntime

/-- The retained state a holder step goes on from. -/
def holderState (runtime : WorkerRuntime β) (request : WorkerExecutionRequest κ β) :
    Except Diagnostics (BattleState β) :=
  let refuse (message : String) : Except Diagnostics (BattleState β) :=
    .error (WorkerException.runtimeError message).diagnostics
  match request.expectedLease, runtime.held with
  | none, _ => refuse "Holder Step request requires expected_lease"
  | some _, none => refuse "Holder Step requested but worker has no retained state"
  | some lease, some held =>
      if held.currentContextId ≠ request.workItem.contextId then
        refuse ("Holder Step context mismatch: worker=" ++ reprOrNone held.currentContextId ++
          " request=" ++ reprOrNone request.workItem.contextId)
      else if held.currentHypothesisId ≠ request.workItem.searchHypothesisId then
        refuse "Holder Step search_hypothesis_id mismatch"
      else if runtime.stateEpoch ≠ lease.stateEpoch then
        refuse ("Holder Step state_epoch mismatch: worker=" ++ toString runtime.stateEpoch ++
          " lease=" ++ toString lease.stateEpoch)
      else .ok held.currentState

/-- The state the candidate is stepped from, and the epoch there. A replay that
    succeeds advances the epoch by what it replayed. -/
def startState (runtime : WorkerRuntime β) (request : WorkerExecutionRequest κ β)
    (execution : Execution κ β) : Except Diagnostics (BattleState β) × Nat :=
  match request.executionMode with
  | .holderStep => (runtime.holderState request, runtime.stateEpoch)
  | .bootstrapStep =>
      match execution.replay with
      | .success state =>
          (.ok state, runtime.stateEpoch + request.workItem.decisionContext.replayPrefix.length)
      | .mismatch message =>
          (.error { faultKind := some "replay_mismatch", message }, runtime.stateEpoch)
      | .raised exc => (.error exc.diagnostics, runtime.stateEpoch)

end WorkerRuntime

/-- `state._cached_legal_actions or session.get_legal_actions()`. -/
def currentLegalActions (state : BattleState β) (execution : Execution κ β) :
    Except WorkerException (List LegalAction) :=
  if state.legalActions ≠ [] then .ok state.legalActions else execution.legalActions

/-- `_resolve_and_step`. -/
def resolveAndStep (state : BattleState β) (item : WorkItem κ β) (execution : Execution κ β) :
    Except WorkerException (BattleState β × DecisionSignature) := do
  let legalActions ← currentLegalActions state execution
  match item.candidate.semanticAction.resolve legalActions with
  | none => .error { typeName := "SemanticActionUnresolvedError" }
  | some resolvedAction => do
      let nextState ← execution.step
      pure (nextState, DecisionSignature.fromBattleState nextState item.candidate.semanticAction
        resolvedAction item.candidate.targetIndex item.candidate.targetEnemyIndex)

/-- The entry a successful step adds to the prefix and to the path. -/
def steppedEntry (item : WorkItem κ β) (signature : DecisionSignature) : ReplayPrefixEntry :=
  { semanticAction := item.candidate.semanticAction
    expectedSignature := signature
    targetIndex := item.candidate.targetIndex
    targetEnemyIndex := item.candidate.targetEnemyIndex }

/-- The context of the pending decision a step led to. -/
def pendingContext (item : WorkItem κ β) (nextState : BattleState β)
    (signature : DecisionSignature) : DecisionContext κ β :=
  { rootSnapshot := item.decisionContext.rootSnapshot
    replayPrefix := item.decisionContext.replayPrefix ++ [steppedEntry item signature]
    planPath := item.decisionContext.planPath ++ [steppedEntry item signature]
    currentDecisionResult := nextState
    currentContextSignature := signature
    searchHypothesisId := item.searchHypothesisId }

/-- The lease on that decision. -/
def establishedLease (digests : Digests κ) (workerId workerGeneration stateEpoch : Nat)
    (item : WorkItem κ β) (nextState : BattleState β) (signature : DecisionSignature) : Lease :=
  { workerId
    workerGeneration
    contextId := deriveContextId digests (pendingContext item nextState signature)
    searchHypothesisId := item.searchHypothesisId
    stateEpoch
    combatSessionId := signature.combatSessionId
    stepIndex := signature.stepIndex
    decisionResultDigest := decisionResultDigest digests signature }

/-- `_build_success_result`. -/
def buildSuccessResult (digests : Digests κ) (workerId workerGeneration stateEpoch : Nat)
    (item : WorkItem κ β) (mode : ExecutionMode) (nextState : BattleState β)
    (signature : DecisionSignature) (execution : Execution κ β) :
    Except WorkerException (BranchResult κ β) :=
  match hboundary : signature.boundary with
  | .stable =>
      execution.capture.map fun snapshot =>
        { status := .success
          executionMode := mode
          workerId := some workerId
          workerGeneration := some workerGeneration
          resultSignature := some signature
          childSnapshot := some snapshot
          nextDecisionResult := some nextState
          oneBoundary := .inr rfl
          success_boundary := fun _ => ⟨signature, rfl, fun _ => rfl,
            fun h => by simp [hboundary] at h, fun h => by simp [hboundary] at h⟩ }
  | .terminal =>
      .ok
        { status := .success
          executionMode := mode
          workerId := some workerId
          workerGeneration := some workerGeneration
          resultSignature := some signature
          terminalResult := some ⟨nextState.isTerminal, execution.outcome⟩
          oneBoundary := .inl rfl
          success_boundary := fun _ => ⟨signature, rfl, fun h => by simp [hboundary] at h,
            fun _ => rfl, fun h => by simp [hboundary] at h⟩ }
  | .pending =>
      execution.pipeline.map fun _ =>
        { status := .success
          executionMode := mode
          workerId := some workerId
          workerGeneration := some workerGeneration
          resultSignature := some signature
          pendingDecisionContext := some (pendingContext item nextState signature)
          establishedLease := some
            (Combat.establishedLease digests workerId workerGeneration stateEpoch item nextState
              signature)
          oneBoundary := noBoundary κ
          success_boundary := fun _ => ⟨signature, rfl, fun h => by simp [hboundary] at h,
            fun h => by simp [hboundary] at h, fun _ => ⟨rfl, rfl, rfl, rfl⟩⟩ }
  | .fault =>
      .error (WorkerException.runtimeError "unexpected successful worker boundary 'fault'")

namespace WorkerRuntime

/-- `_WorkerRuntime.execute`. -/
def execute (digests : Digests κ) (workerId workerGeneration : Nat) (runtime : WorkerRuntime β)
    (request : WorkerExecutionRequest κ β) (execution : Execution κ β) :
    WorkerRuntime β × BranchResult κ β :=
  let (start, epoch) := runtime.startState request execution
  let fault (epoch : Nat) (diagnostics : Diagnostics) : WorkerRuntime β × BranchResult κ β :=
    ({ held := none, stateEpoch := epoch },
      faultResult request.executionMode (some workerId) (some workerGeneration) diagnostics)
  match start with
  | .error diagnostics => fault epoch diagnostics
  | .ok state =>
      match resolveAndStep state request.workItem execution with
      | .error exc => fault epoch exc.diagnostics
      | .ok (nextState, signature) =>
          match buildSuccessResult digests workerId workerGeneration (epoch + 1) request.workItem
              request.executionMode nextState signature execution with
          | .error exc => fault (epoch + 1) exc.diagnostics
          | .ok result =>
              -- A success establishes a lease exactly when its boundary is pending.
              ({ held := result.establishedLease.map fun lease =>
                  { currentState := nextState
                    currentContextId := lease.contextId
                    currentHypothesisId := request.workItem.searchHypothesisId }
                 stateEpoch := epoch + 1 }, result)

/-- The worker holds exactly the decision the lease names. -/
def Holds (runtime : WorkerRuntime β) (lease : Lease) : Prop :=
  ∃ held, runtime.held = some held ∧ held.currentContextId = lease.contextId ∧
    held.currentHypothesisId = lease.searchHypothesisId ∧
    runtime.stateEpoch = lease.stateEpoch

/-- A holder step under a lease that covers its item is not refused by the worker
    that holds what the lease names. -/
theorem holderState_of_holds (runtime : WorkerRuntime β) (request : WorkerExecutionRequest κ β)
    (lease : Lease) (hlease : request.expectedLease = some lease)
    (hkey : lease.key = request.workItem.leaseKey)
    (hholds : runtime.Holds lease) : ∃ state, runtime.holderState request = .ok state := by
  rcases hholds with ⟨held, hheld, hcontext, hhypothesis, hepoch⟩
  have hkeys := Prod.mk.inj hkey
  unfold holderState
  rw [hlease, hheld]
  dsimp only
  rw [if_neg (not_not.mpr (hcontext.trans hkeys.1)),
    if_neg (not_not.mpr (hhypothesis.trans hkeys.2)), if_neg (not_not.mpr hepoch)]
  exact ⟨held.currentState, rfl⟩

end WorkerRuntime

/-- The lease of a success is the one on the decision the step led to. -/
theorem buildSuccessResult_lease (digests : Digests κ) (workerId workerGeneration stateEpoch : Nat)
    (item : WorkItem κ β) (mode : ExecutionMode) (nextState : BattleState β)
    (signature : DecisionSignature) (execution : Execution κ β) (result : BranchResult κ β)
    (h : buildSuccessResult digests workerId workerGeneration stateEpoch item mode nextState
      signature execution = .ok result) :
    result.workerId = some workerId ∧ ∀ lease, result.establishedLease = some lease →
      lease = establishedLease digests workerId workerGeneration stateEpoch item nextState
        signature := by
  unfold buildSuccessResult at h
  split at h
  · cases hcapture : execution.capture with
    | error exc =>
        rw [hcapture] at h
        cases h
    | ok snapshot =>
        rw [hcapture] at h
        cases h
        exact ⟨rfl, fun lease hlease => (by cases hlease)⟩
  · cases h
    exact ⟨rfl, fun lease hlease => (by cases hlease)⟩
  · cases hpipeline : execution.pipeline with
    | error exc =>
        rw [hpipeline] at h
        cases h
    | ok _ =>
        rw [hpipeline] at h
        cases h
        exact ⟨rfl, fun lease hlease => (Option.some.inj hlease).symm⟩
  · cases h

namespace WorkerRuntime

variable (digests : Digests κ) (workerId workerGeneration : Nat) (runtime : WorkerRuntime β)
  (request : WorkerExecutionRequest κ β) (execution : Execution κ β)

/-- A result names the worker that ran the request. A lease it establishes is on
    that worker in its generation, and the worker then holds what it names. -/
theorem execute_spec :
    (runtime.execute digests workerId workerGeneration request execution).2.workerId =
        some workerId ∧
      ∀ lease,
        (runtime.execute digests workerId workerGeneration request execution).2.establishedLease =
            some lease →
          lease.workerId = workerId ∧ lease.workerGeneration = workerGeneration ∧
          (runtime.execute digests workerId workerGeneration request execution).1.Holds lease := by
  unfold execute
  dsimp only
  split
  · exact ⟨rfl, fun lease hlease => (by cases hlease)⟩
  · split
    · exact ⟨rfl, fun lease hlease => (by cases hlease)⟩
    · split
      · exact ⟨rfl, fun lease hlease => (by cases hlease)⟩
      · rename_i nextState signature _ _ result hresult
        rcases buildSuccessResult_lease _ _ _ _ _ _ _ _ _ _ hresult with ⟨hworker, hlease⟩
        refine ⟨hworker, fun lease hsome => ?_⟩
        have hestablished := hlease lease hsome
        rw [hestablished]
        refine ⟨rfl, rfl, ⟨nextState, _, request.workItem.searchHypothesisId⟩, ?_, rfl, rfl, rfl⟩
        rw [hsome, hestablished]
        rfl

/-- A result names the generation of the worker that ran the request. -/
theorem execute_workerGeneration :
    (runtime.execute digests workerId workerGeneration request execution).2.workerGeneration =
      some workerGeneration := by
  unfold execute
  dsimp only
  split
  · rfl
  · split
    · rfl
    · split
      · rfl
      · rename_i hresult
        unfold buildSuccessResult at hresult
        split at hresult
        · rcases hcapture : execution.capture with exc | snapshot
          · rw [hcapture] at hresult
            cases hresult
          · rw [hcapture] at hresult
            cases hresult
            rfl
        · cases hresult
          rfl
        · rcases hpipeline : execution.pipeline with exc | done
          · rw [hpipeline] at hresult
            cases hresult
          · rw [hpipeline] at hresult
            cases hresult
            rfl
        · cases hresult

end WorkerRuntime

end Combat

end STS2RL
