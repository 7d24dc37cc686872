import STS2RL.Combat.BranchResult
import STS2RL.Combat.CombatPhase
import STS2RL.WholeRun.Session

/-!
# A Combat Phase with its Branches

What an instance has of a combat: the live combat with its anchor, the lease
under which the live session changes the game, the branches with their workers,
and the table of hypotheses.

The branches are a parameter, a state `Φ` with the operations that a phase calls
on it. Each of them may fail at any time, and may change the state when it does.

## Main definitions

* `BranchOps`: What a phase calls on its branches.
* `PhaseEnv`: What a phase is run with.
* `Phase`: A combat phase.
* `Phase.commitRootAction`, `Phase.buildWorkItem`, `Phase.close`: Its operations.
-/

namespace STS2RL

namespace WholeRun

open Api (PyError Fields RngKey RngHypothesisTable)
open Combat (BattleState CombatSession PipelineCandidateRef)

variable {W Φ κ β α : Type}

/-- An exception of the combat side. -/
def ofPyException (exc : PyException) : PyError := .raised exc.typeName exc.message

/-- The public status of a branch. -/
inductive BookStatus where
  | completed
  | queued
  | running
  | cancelled
  | faulted
  | released
  deriving DecidableEq, Repr

/-- A status, in a response. -/
def BookStatus.text : BookStatus → String
  | completed => "completed"
  | queued => "queued"
  | running => "running"
  | cancelled => "cancelled"
  | faulted => "faulted"
  | released => "released"

/-- What a phase calls on its branches and their workers. -/
structure BranchOps (Φ κ β : Type) where
  submitMany : List (Combat.WorkItem κ β × Option String) → Act PyError Φ (List String)
  poll : ℚ → List String → Act PyError Φ (List (String × Combat.BranchResult κ β))
  branchStatus : String → Act PyError Φ BookStatus
  activeBranchCount : Φ → Nat
  cancel : List String → Act PyError Φ Unit
  release : List String → Act PyError Φ Unit
  closeAll : Act PyError Φ Unit
  closePool : Act PyError Φ Unit

/-- What a phase is run with. -/
structure PhaseEnv (W Φ κ β : Type) where
  branches : BranchOps Φ κ β
  live : CombatSession W κ β
  publicPiles : β → Combat.PublicPiles
  engineState : β → Fields
  describe : Combat.LegalAction → RunAction
  singleHypothesisWorkItem : Combat.DecisionContext κ β → PipelineCandidateRef → Nat →
    Except PyException (Combat.WorkItem κ β)

/-- A combat phase. `holder` is the live session as a holder of leases, and tells
    phases apart. `closes` counts the calls of `close`. -/
structure Phase (Φ κ β : Type) where
  holder : Nat
  lease : Option GameLease
  combat : Combat.CombatPhase Unit κ β
  branches : Φ
  rngTable : RngHypothesisTable := {}
  closes : Nat := 0

namespace Phase

/-- The live combat with its session in another place: the world, which the phase
    shares with the run, or nothing. -/
def combatIn {σ τ : Type} (combat : Combat.CombatPhase σ κ β) (place : τ) :
    Combat.CombatPhase τ κ β where
  session := place
  rootState := combat.rootState
  adoptedIntoRun := combat.adoptedIntoRun
  heldStableSnapshot := combat.heldStableSnapshot
  heldRoomEntryRoot := combat.heldRoomEntryRoot
  replayPrefix := combat.replayPrefix
  rootCommitAdvanced := combat.rootCommitAdvanced

/-- A call on the branches. -/
def onBranches (call : Act PyError Φ α) : Act PyError (Session W × Phase Φ κ β) α :=
  Act.zoom (fun state => state.2.branches)
    (fun branches state => (state.1, { state.2 with branches })) call

/-- `_mutating_game` of the live session. -/
def mutatingGame : Act PyError (Session W × Phase Φ κ β) Unit := do
  let (session, phase) ← Act.get
  match phase.lease with
  | some lease => Act.ofExcept (session.access.validateCurrent lease)
  | none =>
      let (lease, access) ← Act.ofExcept (session.access.claim phase.holder .combat)
      Act.modify fun (session, phase) =>
        ({ session with access }, { phase with lease := some lease })
      Act.ofExcept (access.validateCurrent lease)

variable (env : PhaseEnv W Φ κ β)

/-- `commit_root_action`. The live session needs its lease to change the game. -/
def commitRootAction (chosen : RunAction) : Act PyError (Session W × Phase Φ κ β) Unit := do
  Act.modify fun (session, phase) =>
    (session, { phase with combat := { phase.combat with rootCommitAdvanced := false } })
  mutatingGame
  let (session, phase) ← Act.get
  let (combat, outcome) := Combat.CombatPhase.commitRootAction env.live env.publicPiles
    chosen.toLegalAction (combatIn phase.combat session.world)
  Act.modify fun (session, phase) =>
    ({ session with world := combat.session }, { phase with combat := combatIn combat () })
  Act.ofExcept (outcome.mapError ofPyException)

/-- `begin_lease_transfer` of the live session. -/
def beginLeaseTransfer : Act PyError (Session W × Phase Φ κ β) GameLease := do
  let (session, phase) ← Act.get
  match phase.lease with
  | none => Act.raise (accessError "LiveCombatSession has no COMBAT lease to transfer")
  | some lease =>
      let (transfer, access) ← Act.ofExcept (session.access.begin lease)
      Act.modify fun (session, phase) => ({ session with access }, { phase with lease := none })
      pure transfer

/-- `accept_transferred_lease` of the live session. -/
def acceptTransferredLease (lease : GameLease) : Act PyError (Session W × Phase Φ κ β) Unit := do
  let (session, phase) ← Act.get
  Act.raiseIf (lease.state ≠ .combat ∨ lease.holder ≠ phase.holder)
    (accessError "LiveCombatSession received a lease for the wrong holder/state")
  Act.ofExcept (session.access.validateCurrent lease)
  Act.modify fun (session, phase) => (session, { phase with lease := some lease })

/-- `close` of the live session. A lease that is no longer current is left alone. -/
def closeLive : Session W × Phase Φ κ β → Session W × Phase Φ κ β
  | (session, phase) =>
      match phase.lease with
      | none => (session, phase)
      | some lease =>
          match session.access.release lease with
          | .error _ => (session, { phase with lease := none })
          | .ok access => ({ session with access }, { phase with lease := none })

/-- `close`. -/
def close : Act PyError (Session W × Phase Φ κ β) Unit := do
  Act.modify fun (session, phase) => (session, { phase with closes := phase.closes + 1 })
  Act.ensuring (onBranches env.branches.closeAll)
    (Act.ensuring (onBranches env.branches.closePool) (Act.modify closeLive))

/-- `build_work_item`. -/
def buildWorkItem (context : Combat.DecisionContext κ β) (chosen : RunAction) (key : RngKey) :
    Act PyError (Session W × Phase Φ κ β) (Combat.WorkItem κ β) := do
  let (_, phase) ← Act.get
  let (index, rngTable) := phase.rngTable.hypothesisIndexFor key
  Act.modify fun (session, phase) => (session, { phase with rngTable })
  Act.ofExcept ((env.singleHypothesisWorkItem context
    { currentContextSignature := context.currentContextSignature
      semanticAction := chosen.semanticAction
      targetIndex := chosen.targetIndex
      targetEnemyIndex := chosen.enemyIndex } index).mapError ofPyException)

/-- `restore_rng_hypotheses`. -/
def restoreRngHypotheses (marker : Nat) : Act PyError (Session W × Phase Φ κ β) Unit := do
  let (_, phase) ← Act.get
  let rngTable ← Act.ofExcept (phase.rngTable.restore marker)
  Act.modify fun (session, phase) => (session, { phase with rngTable })

/-- `root_branching_unavailable_reason`. -/
def rootBranchingUnavailableReason (phase : Phase Φ κ β) : Option String :=
  if phase.combat.heldStableSnapshot.isSome ∨ phase.combat.heldRoomEntryRoot.isSome then none
  else if phase.combat.adoptedIntoRun then
    some "root is not branchable: combat entered pending without map snapshot and room id"
  else some "root is not branchable: no stable snapshot anchor is established"

end Phase

/-- A decision of a combat, of the root or of a branch: what is offered, what
    branches start from, and the board. -/
structure PhaseView (κ β : Type) where
  legalActions : List RunAction
  decisionContext : Option (Combat.DecisionContext κ β)
  battleState : BattleState β
  boundary : Combat.Boundary

/-- The decision of the root. -/
def Phase.rootView (env : PhaseEnv W Φ κ β) (phase : Phase Φ κ β) :
    Except PyError (PhaseView κ β) :=
  (phase.combat.rootDecision.mapError ofPyException).map fun (legal, context, boundary) =>
    ⟨legal.map env.describe, context, phase.combat.rootState, boundary⟩

/-- `default` of `max_time_ms`. -/
def defaultMaxTimeMs : Int := 20000

/-- `_phase_view_from_result`: the decision a branch has come to, or none at the
    end of the combat. -/
def phaseViewFromResult (env : PhaseEnv W Φ κ β) (result : Combat.BranchResult κ β) :
    Except PyError (Option (PhaseView κ β)) :=
  match result.resultSignature with
  | none => .error (.raised "AttributeError" "'NoneType' object has no attribute 'boundary'")
  | some signature =>
      match signature.boundary with
      | .pending =>
          match result.pendingDecisionContext with
          | none => .error (.raised "AttributeError"
              "'NoneType' object has no attribute 'current_decision_result'")
          | some context =>
              let state := context.currentDecisionResult
              .ok (some ⟨state.legalActions.map env.describe, some context, state, .pending⟩)
      | .stable =>
          match result.childSnapshot, result.nextDecisionResult with
          | some snapshot, some state =>
              .ok (some ⟨state.legalActions.map env.describe,
                some (.fromRoot (.snapshot snapshot) state signature), state, .stable⟩)
          -- A worker reports the two together.
          | _, _ => .error (.raised "AttributeError" "branch result without a next decision")
      | .terminal => .ok none
      | .fault => .error (.raised "RuntimeError" "unexpected combat branch boundary: 'fault'")

/-- `require_terminal_outcome`. -/
def requireTerminalOutcome (value : Option String) (context : String)
    (validOutcomes : List String) : Except PyError String :=
  match value with
  | some outcome =>
      if outcome ∈ validOutcomes then .ok outcome
      else .error (.raised "RuntimeError" (context ++
        " reached a terminal boundary without a valid outcome: " ++ Api.pyRepr outcome))
  | none => .error (.raised "RuntimeError" (context ++
      " reached a terminal boundary without a valid outcome: None"))

/-- `VALID_COMBAT_TERMINAL_OUTCOMES`. -/
def validCombatTerminalOutcomes : List String := ["victory", "defeat"]

/-- `VALID_WHOLE_RUN_TERMINAL_OUTCOMES`. -/
def validWholeRunTerminalOutcomes : List String := ["victory", "defeat", "run_victory"]

end WholeRun

end STS2RL
