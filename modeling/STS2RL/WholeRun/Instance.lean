import STS2RL.WholeRun.Phase

/-!
# A Whole-Run Instance

The state of a whole-run instance and the operations on the root of the run:
entering and leaving a combat, committing an action, cancelling and releasing
branches, and closing.

A combat is handed over in a transaction. Entering goes back to the run when it
fails before the lease is committed. After that, and when leaving fails, there
is nothing to go back to: the instance is poisoned.

The record of a branch and the phase of a combat are objects that the source
shares between the instance and its callers. Here they live in the state, and a
phase is recognized by its holder.

## Main definitions

* `View`, `Book`: A decision of the run, and what is kept of a branch.
* `RunEnv`, `Instance`: What an instance is run with, and its state.
* `enterCombatPhase`, `leaveCombatPhase`, `poisonCombatTransaction`: The hand-over.
* `cancelAndReleaseAllBranches`: The end of all branches.
* `construct`, `Constructs`: How an instance begins.
* `commitAction`, `getDecision`, `cancelBranches`, `releaseBranches`,
  `getBranchStatus`, `close`: The operations.
-/

namespace STS2RL

namespace WholeRun

open Api (PyError Fields RngKey BranchIdRegistry DecisionPointRegistry reject pyRepr)
open Combat (BattleState)

variable {W Φ κ β α : Type}

/-- The id of the root. -/
def root : PyStr := .text Api.rootBranchId

/-- A decision of the run, with what leads to it from the last map. -/
structure View where
  legalActions : List RunAction
  boundary : RunBoundary
  observation : Observation
  roomContext : RoomContext
  mapSnapshot : Option String
  roomId : Option Int
  actionPrefix : List Int
  choiceType : String
  chainBlocked : Bool
  eventRngState : Option EventRngState

/-- `resolve_action_id`, with the action that it points to. -/
def resolveActionId (legalActions : List RunAction) (publicActionId : PyStr) :
    Except PyError RunAction :=
  match legalActions.filter fun action => PyStr.text (toString action.actionId) =
    publicActionId with
  | [] => .error (.rejected (reject ("action_id " ++ pyRepr publicActionId ++
      " is not among current legal actions")))
  | [action] => .ok action
  | _ => .error (.rejected (reject ("action_id " ++ pyRepr publicActionId ++
      " is ambiguous among current legal actions")))

/-- `_map_rooms_as_legal_actions`, for one room. -/
def MapRoom.asLegalAction (room : MapRoom) : RunAction where
  actionId := room.roomId
  actionType := "map_room"
  isAvailable := true
  fields := [("action_id", .int room.roomId), ("action_type", .str "map_room"),
    ("label", .str (.text (room.pointType ++ "@" ++ toString room.column ++ "," ++
      toString room.row))),
    ("is_available", .bool true),
    ("parameters", .obj [("column", .int room.column), ("row", .int room.row),
      ("point_type", .str (.text room.pointType))])]

/-- `_choice_type_from_boundary`. -/
def choiceTypeFromBoundary (boundary : RunBoundary) : String :=
  if boundary = .mapSelect then "map" else boundary.text

/-- An entry of a branch log. -/
structure LogEntry where
  depth : Nat
  decisionPointId : PyStr
  actionId : PyStr
  rngId : Int
  deriving DecidableEq

/-- An entry of a branch log, in a response. -/
def LogEntry.asDict (entry : LogEntry) : Fields :=
  [("depth", .int entry.depth), ("decision_point_id", .str entry.decisionPointId),
    ("action_id", .str entry.actionId), ("rng_id", .int entry.rngId)]

/-- A branch log, in a response. -/
def logAsList (log : List LogEntry) : Json := .list (log.map fun entry => .obj entry.asDict)

/-- `EventRngReplayPlan`. -/
structure EventRngReplayPlan where
  hypothesisKey : RngKey
  overrideState : EventRngState
  applyBeforeActionIndex : Nat
  deriving DecidableEq

/-- The decision a branch has come to: one of the run, or one of a combat. -/
inductive BookView (κ β : Type) where
  | run (view : View)
  | combat (view : PhaseView κ β)

/-- `_BranchBookkeeping`. -/
structure Book (κ β : Type) where
  parentPublicId : PyStr
  branchLog : List LogEntry
  history : HistoryBuilder
  view : Option (BookView κ β) := none
  status : BookStatus := .completed
  terminal : Bool := false
  outcome : Option String := none
  rngId : Int
  eventRngPlan : Option EventRngReplayPlan := none
  internalId : Option String := none

/-- The steps of a hand-over at which an exception may strike that nothing else
    in the model brings about. -/
inductive HandOverStep where
  | beginRun | issue | commitCombat | acceptCombat | restore | rollback
  | beginCombat | commitRun | acceptRun
  deriving DecidableEq

/-- A work item for a worker of the run. -/
structure EventWorkItem where
  workId : PyStr
  contextId : String
  choiceType : String
  mapSnapshot : Option String
  roomId : Option Int
  actionPrefix : List Int
  targetBoundary : RunBoundary
  resolveActionId : Int
  eventRngPlan : Option EventRngReplayPlan
  deriving DecidableEq

/-- `ChoiceStepResult`, as the instance reads it. -/
structure ChoiceStepResult where
  settledObservation : Observation
  settledLegalActions : List RunAction
  settledRoomContext : RoomContext
  autoActionIds : List Int

/-- A result of a worker of the run, as the instance reads it. -/
structure ChoiceResult where
  success : Bool
  step : Option ChoiceStepResult
  message : Option String
  faultKind : Option String

/-- What an instance is run with. -/
structure RunEnv (W Φ κ β : Type) where
  emulator : Emulator W
  phases : PhaseEnv W Φ κ β
  adoptCurrentCombat : Act PyError W (BattleState β)
  makeBranches : Act PyError W Φ
  combatCompletion : BattleState β → Option Json
  strikes : HandOverStep → Act PyError W Unit
  deriveContextId : View → String
  sha256 : String → List Nat
  dispatchChoiceWorkItems : List EventWorkItem → Act PyError W (List ChoiceResult)
  closePool : Act PyError W Unit
  maxBranches : Nat

/-- The state of a whole-run instance. `nextHolder` is the holder that the next
    combat phase gets. -/
structure Instance (W Φ κ β : Type) where
  session : Session W
  nextHolder : Nat := 1
  branchIds : BranchIdRegistry := {}
  decisionPoints : DecisionPointRegistry := {}
  eventRngRegistry : EventRngHypothesisRegistry := {}
  mapSnapshot : Option String := none
  roomId : Option Int := none
  actionPrefix : List Int := []
  rootBranchLog : List LogEntry := []
  rootHistory : HistoryBuilder := {}
  /-- The contexts that decisions of the root were read in, for the proofs: the code keeps
      none of them. -/
  rootContexts : List RoomContext := []
  bookkeeping : Dict PyStr (Book κ β) := Dict.empty
  combatPhase : Option (Phase Φ κ β) := none
  combatBranchReservations : Finset PyStr := ∅
  lastCombatCompletion : Option Json := none
  faulted : Bool := false
  closed : Bool := false

/-- A program on an instance. -/
abbrev Op (W Φ κ β α : Type) : Type := Act PyError (Instance W Φ κ β) α

namespace Instance

/-- A call on the session of the run. -/
def onSession (call : Act PyError (Session W) α) : Op W Φ κ β α :=
  Act.zoom Instance.session (fun session inst => { inst with session }) call

/-- A call on the active combat phase. -/
def onPhase (call : Act PyError (Session W × Phase Φ κ β) α) : Op W Φ κ β α := fun inst =>
  match inst.combatPhase with
  | none => (.error (.raised "AttributeError" "'NoneType' object has no attribute"), inst)
  | some phase =>
      let (outcome, session, phase) := call (inst.session, phase)
      (outcome, { inst with session, combatPhase := some phase })

/-- A change of one branch record. -/
def modifyBook (branchId : PyStr) (change : Book κ β → Book κ β)
    (inst : Instance W Φ κ β) : Instance W Φ κ β :=
  match inst.bookkeeping.get? branchId with
  | none => inst
  | some book => { inst with bookkeeping := inst.bookkeeping.set branchId (change book) }

/-- `_ensure_mutable`. -/
def ensureMutable : Op W Φ κ β Unit := do
  let inst ← Act.get
  Act.raiseIf inst.faulted (.rejected (reject
    "whole-run instance is faulted; close it explicitly before reuse"))

/-- `_reject_if_root`. -/
def rejectIfRoot (branchId : PyStr) : Op W Φ κ β Unit :=
  Act.raiseIf (branchId = root)
    (.rejected (reject "root cannot be Cancelled/Released/status-queried as a Branch"))

/-- The refusal of a branch that is not recorded. -/
def unknownBranch (branchId : PyStr) : PyError :=
  .rejected (reject ("unknown branch_id " ++ pyRepr branchId))

/-- The error of a combat branch whose phase is gone. -/
def outlivedPhase : PyError :=
  .raised "RuntimeError" "combat Branch outlived its active CombatPhase"

/-- `_release_event_rng_reference`, for a branch with the record. -/
def releaseEventRngReference (branchId : PyStr) (inst : Instance W Φ κ β) : Instance W Φ κ β :=
  match (inst.bookkeeping.get? branchId).bind Book.eventRngPlan with
  | none => inst
  | some plan =>
      modifyBook branchId (fun book => { book with eventRngPlan := none })
        { inst with
          eventRngRegistry := inst.eventRngRegistry.releaseBranch plan.hypothesisKey branchId }

/-!
### Branches

Cancelling and releasing, by the manager of the combat or by the records of the instance.
-/

section Branches

variable (env : RunEnv W Φ κ β)

/-- The record of a branch after `_cancel_and_release_all_branches`. -/
def retiredBook (book : Book κ β) : Book κ β :=
  { book with
    status := if book.status = .cancelled ∨ book.status = .released then book.status
      else .released
    view := none }

/-- The branches of the phase that are not released. -/
def phaseInternalIds (inst : Instance W Φ κ β) : List String :=
  inst.bookkeeping.entries.filterMap fun (_, book) =>
    if book.status ≠ .released then book.internalId else none

/-- The second half of `_cancel_and_release_all_branches`: the public records. -/
def retireBooks (inst : Instance W Φ κ β) : Instance W Φ κ β :=
  { inst with
    bookkeeping := inst.bookkeeping.mapVals fun _ book => retiredBook book
    decisionPoints := inst.bookkeeping.keys.foldl DecisionPointRegistry.clear inst.decisionPoints
    combatBranchReservations := inst.bookkeeping.keys.foldl Finset.erase
      inst.combatBranchReservations
    eventRngRegistry := inst.eventRngRegistry.releaseAll }

/-- `_cancel_and_release_all_branches`. -/
def cancelAndReleaseAllBranches : Op W Φ κ β Unit := do
  let inst ← Act.get
  Act.onlyIf (inst.phaseInternalIds ≠ []) (do
    Act.raiseIf inst.combatPhase.isNone outlivedPhase
    onPhase (Phase.onBranches (env.phases.branches.release inst.phaseInternalIds)))
  Act.modify retireBooks

/-- What `cancel_branches` does in the phase. -/
def cancelInternal : Option String → Op W Φ κ β Unit
  | none => pure ()
  | some internalId => do
      let inst ← Act.get
      Act.raiseIf inst.combatPhase.isNone outlivedPhase
      onPhase (Phase.onBranches (env.phases.branches.cancel [internalId]))

/-- One turn of the loop of `cancel_branches`. -/
def cancelBranch (branchId : PyStr) : Op W Φ κ β Unit := do
  rejectIfRoot branchId
  let inst ← Act.get
  match inst.bookkeeping.get? branchId with
  | none => Act.raise (unknownBranch branchId)
  | some book =>
      Act.onlyIf (book.status ≠ .cancelled ∧ book.status ≠ .released) (do
        cancelInternal env book.internalId
        Act.modify fun inst => releaseEventRngReference branchId
          (modifyBook branchId (fun book => { book with status := .cancelled, view := none }) inst))

/-- `{bid: status for bid in branch_ids}`. -/
def branchStatuses (branchIds : List PyStr) (status : BookStatus) : Json :=
  .obj (Dict.empty.setAll (branchIds.map fun branchId => (branchId, Json.str status.text))).entries

/-- `cancel_branches`. -/
def cancelBranches (branchIds : List PyStr) : Op W Φ κ β Fields := do
  ensureMutable
  Act.forEach (cancelBranch env) branchIds
  pure [("status", .str "completed"), ("branch_statuses", branchStatuses branchIds .cancelled)]

/-- What `release_branches` does in the phase, and the reservation. -/
def releaseInternal (branchId : PyStr) : Option String → Op W Φ κ β Unit
  | none => pure ()
  | some internalId => do
      let inst ← Act.get
      Act.raiseIf inst.combatPhase.isNone outlivedPhase
      onPhase (Phase.onBranches (env.phases.branches.release [internalId]))
      Act.modify fun inst => { inst with
        combatBranchReservations := inst.combatBranchReservations.erase branchId }

/-- One turn of the loop of `release_branches`. -/
def releaseBranch (branchId : PyStr) : Op W Φ κ β Unit := do
  rejectIfRoot branchId
  let inst ← Act.get
  match inst.bookkeeping.get? branchId with
  | none => Act.raise (unknownBranch branchId)
  | some book =>
      Act.onlyIf (book.status ≠ .released) (do
        releaseInternal env branchId book.internalId
        Act.modify fun inst => releaseEventRngReference branchId
          (modifyBook branchId (fun book => { book with status := .released, view := none }) inst))

/-- `release_branches`. -/
def releaseBranches (branchIds : List PyStr) : Op W Φ κ β Fields := do
  ensureMutable
  Act.forEach (releaseBranch env) branchIds
  pure [("status", .str "completed"), ("branch_statuses", branchStatuses branchIds .released)]

/-- One turn of the loop of `get_branch_status`. -/
def readBranchStatus (branchId : PyStr) : Op W Φ κ β (PyStr × Json) := do
  rejectIfRoot branchId
  let inst ← Act.get
  match inst.bookkeeping.get? branchId with
  | none => Act.raise (unknownBranch branchId)
  | some book =>
      match book.internalId with
      | some internalId =>
          if book.status = .released then pure (branchId, .str book.status.text)
          else do
            Act.raiseIf inst.combatPhase.isNone outlivedPhase
            let status ← onPhase (Phase.onBranches (env.phases.branches.branchStatus internalId))
            Act.modify (modifyBook branchId fun book => { book with status })
            pure (branchId, .str status.text)
      | none => pure (branchId, .str book.status.text)

/-- `get_branch_status`. -/
def getBranchStatus (branchIds : List PyStr) : Op W Φ κ β Fields := do
  let statuses ← Act.collect (readBranchStatus env) branchIds
  pure [("status", .str "completed"),
    ("branch_statuses", .obj (Dict.empty.setAll statuses).entries)]

end Branches

/-!
### Decisions

What is read off the game, and how a decision is put into a reply.
-/

section Decisions

variable (env : RunEnv W Φ κ β)

/-- `_maybe_capture_map_snapshot`. -/
def maybeCaptureMapSnapshot : Op W Φ κ β Unit := do
  let observation ← onSession (Session.inWorld env.emulator.getObservation)
  Act.onlyIf (observation.boundary = .mapSelect) (do
    let snapshot ← onSession (Session.inWorld env.emulator.saveState)
    Act.modify fun inst =>
      { inst with mapSnapshot := some snapshot, roomId := none, actionPrefix := [] })

/-- The rooms of the map, or the legal actions elsewhere. -/
def rootActions (boundary : RunBoundary) : Op W Φ κ β (List RunAction) :=
  if boundary = .mapSelect then do
    let rooms ← onSession (Session.inWorld env.emulator.getMapRooms)
    pure (rooms.map MapRoom.asLegalAction)
  else onSession (Session.inWorld env.emulator.getLegalActions)

/-- The random streams of an event. -/
def rootRngState (boundary : RunBoundary) : Op W Φ κ β (Option EventRngState) :=
  if boundary = .eventChoice then do
    let state ← onSession (Session.inWorld env.emulator.getEventRngState)
    pure (some state)
  else pure none

/-- The history of the root after one more context. -/
def observeRoot (roomContext : RoomContext) (inst : Instance W Φ κ β) : Instance W Φ κ β :=
  { inst with
    rootHistory := inst.rootHistory.observeRoomContext roomContext
    rootContexts := inst.rootContexts ++ [roomContext] }

/-- `_root_view`. -/
def rootView : Op W Φ κ β View := do
  let observation ← onSession (Session.inWorld env.emulator.getObservation)
  let legalActions ← rootActions env observation.boundary
  let roomContext ← onSession (Session.inWorld env.emulator.getRoomContext)
  Act.modify (observeRoot roomContext)
  let eventRngState ← rootRngState env observation.boundary
  let inst ← Act.get
  pure { legalActions
         boundary := observation.boundary
         observation
         roomContext
         mapSnapshot := inst.mapSnapshot
         roomId := inst.roomId
         actionPrefix := inst.actionPrefix
         choiceType := choiceTypeFromBoundary observation.boundary
         chainBlocked := false
         eventRngState }

/-- The current decision point, as a reply holds it. -/
def currentPoint (inst : Instance W Φ κ β) (branchId : PyStr) : Json :=
  match inst.decisionPoints.current? branchId with
  | none => .null
  | some decisionPointId => .str decisionPointId

/-- A reply to an operation that was carried out. -/
def completedReply (fields : Fields) : Fields := ("status", .str "completed") :: fields

/-- The members that every decision has. -/
def decisionFields (inst : Instance W Φ κ β) (branchId : PyStr) (branchLog : List LogEntry)
    (masked : Fields) : Fields :=
  [("branch_id", .str branchId), ("decision_point_id", currentPoint inst branchId),
    ("branch_log", logAsList branchLog), ("masked_emulator_dto", .obj masked)]

/-- `mask_legal_actions` of actions. -/
def maskedActions (legalActions : List RunAction) : Except PyError Json :=
  ((Api.maskLegalActions (legalActions.map RunAction.fields)).mapError ofPyException).map
    fun masked => .list (masked.map Json.obj)

/-- The members that a decision of the run adds to the state. -/
def decisionExtra (view : View) (history : HistoryBuilder) : Except PyError Fields :=
  match maskedActions view.legalActions with
  | .error error => .error error
  | .ok actions =>
      let extra : Fields := [("boundary", .str (.text view.boundary.text)),
        ("legal_actions", actions), ("room_context", .obj view.roomContext.fields),
        ("history", history.toPublicList)]
      if view.boundary = .runTerminal then
        (requireTerminalOutcome (some view.observation.outcome) "whole-run root decision"
          validWholeRunTerminalOutcomes).map fun outcome =>
            extra ++ ([("run_terminal", .bool true), ("outcome", .str (.text outcome))] : Fields)
      else .ok extra

/-- `_decision_response_fields`. -/
def decisionResponseFields (inst : Instance W Φ κ β) (branchId : PyStr) (view : View)
    (branchLog : List LogEntry) (history : HistoryBuilder) : Except PyError Fields :=
  match decisionExtra view history with
  | .error error => .error error
  | .ok extra =>
      ((Api.buildMaskedEmulatorDto view.observation.state (some extra)).mapError ofPyException).map
        (decisionFields inst branchId branchLog)

/-- The decision of the root, as a reply. -/
def rootDecisionReply (view : View) : Op W Φ κ β Fields := do
  let inst ← Act.get
  let fields ← Act.ofExcept
    (decisionResponseFields inst root view inst.rootBranchLog inst.rootHistory)
  pure (completedReply fields)

/-- `_whole_run_boundary`. -/
def wholeRunBoundary (boundary : Combat.Boundary) : String :=
  if boundary = .pending then RunBoundary.pendingChoice.text else boundary.text

/-- `_phase_decision_response_fields`, for a branch with a record. -/
def phaseDecisionResponseFields (branchId : PyStr) (view : PhaseView κ β) :
    Op W Φ κ β Fields := do
  let roomContext ← onSession (Session.inWorld env.emulator.getRoomContext)
  Act.modify (modifyBook branchId fun book =>
    { book with history := book.history.observeRoomContext roomContext })
  let inst ← Act.get
  match inst.bookkeeping.get? branchId with
  | none => Act.raise (.raised "KeyError" (pyRepr branchId))
  | some book =>
      let actions ← Act.ofExcept (maskedActions view.legalActions)
      let masked ← Act.ofExcept ((Api.buildMaskedEmulatorDto
        (env.phases.engineState view.battleState.board)
        (some [("boundary", .str (.text (wholeRunBoundary view.boundary))),
          ("legal_actions", actions), ("room_context", .obj roomContext.fields),
          ("history", book.history.toPublicList)])).mapError ofPyException)
      pure (decisionFields inst branchId book.branchLog masked)

/-- The record of a branch that ended a combat, as a reply. -/
def combatTerminalDto (outcome : String) : Except PyError Fields :=
  (Api.buildMaskedEmulatorDto [] (some [("terminal", .bool true),
    ("outcome", .str (.text outcome)),
    ("transition", .obj [("kind", .str "combat_completed")])])).mapError ofPyException

/-- The record of a branch that ended the run, as a reply. -/
def runTerminalDto (outcome : String) : Except PyError Fields :=
  (Api.buildMaskedEmulatorDto [("run_terminal", .bool true), ("outcome", .str (.text outcome))]
    none).mapError ofPyException

/-- What `get_decision` answers for a branch that has ended. -/
def terminalDecision (branchId : PyStr) (book : Book κ β) (inst : Instance W Φ κ β) :
    Except PyError Fields :=
  let masked :=
    if book.internalId.isSome then
      (requireTerminalOutcome book.outcome ("combat branch " ++ pyRepr branchId)
        validCombatTerminalOutcomes).bind combatTerminalDto
    else
      (requireTerminalOutcome book.outcome ("whole-run branch " ++ pyRepr branchId)
        validWholeRunTerminalOutcomes).bind runTerminalDto
  masked.map fun masked =>
    completedReply (decisionFields inst branchId book.branchLog masked)

/-- `get_decision` for a branch with a record. -/
def branchDecision (branchId : PyStr) (book : Book κ β) : Op W Φ κ β Fields := do
  let inst ← Act.get
  if book.status ≠ .completed then
    pure [("status", .str (.text book.status.text)), ("branch_id", .str branchId)]
  else if book.terminal then Act.ofExcept (terminalDecision branchId book inst)
  else
    match book.view with
    | none => Act.raise (.raised "AttributeError" "'NoneType' object has no attribute 'boundary'")
    | some (.combat view) => do
        let fields ← phaseDecisionResponseFields env branchId view
        pure (completedReply fields)
    | some (.run view) => do
        let fields ← Act.ofExcept
          (decisionResponseFields inst branchId view book.branchLog book.history)
        pure (completedReply fields)

/-- `get_decision`. -/
def getDecision (branchId : PyStr) : Op W Φ κ β Fields := do
  let inst ← Act.get
  if inst.faulted then pure [("status", .str "faulted"), ("branch_id", .str branchId)]
  else if branchId = root then do
    let view ← rootView env
    rootDecisionReply view
  else if inst.branchIds.isKnown branchId then
    match inst.bookkeeping.get? branchId with
    | none => Act.raise (.raised "KeyError" (pyRepr branchId))
    | some book => branchDecision env branchId book
  else Act.raise (unknownBranch branchId)

/-- `start_instance_response`. -/
def startInstanceResponse (instanceId : PyStr) : Op W Φ κ β Fields := do
  let inst ← Act.get
  if inst.faulted then pure [("status", .str "faulted"), ("instance_id", .str instanceId)]
  else do
    let view ← rootView env
    let fields ← rootDecisionReply view
    pure (("instance_id", .str instanceId) :: fields)

end Decisions

/-!
### Construction

An instance is configured and begins at the map.
-/

section Construction

variable (env : RunEnv W Φ κ β)

/-- `instance_config.get(key, default)`. -/
def configOr (config : Fields) (key : PyStr) (default : Json) : Json :=
  (Dict.lookupL key config).getD default

/-- `god_mode`. -/
def enterGodMode : Json → Op W Φ κ β Unit
  | .bool godMode => Act.onlyIf godMode (onSession (Session.enableGodMode env.emulator))
  | _ => Act.raise (.rejected (reject "instance_config.god_mode must be of type bool"))

/-- `__init__`, on an instance that has only its session. -/
def construct (config : Fields) : Op W Φ κ β Unit := do
  enterGodMode env (configOr config "god_mode" (.bool false))
  onSession (Session.startRun env.emulator (configOr config "seed" (.int 1))
    (configOr config "character_id" (.str "IRONCLAD")) (configOr config "ascension" (.int 0)))
  let auto ← onSession (drainTrivialRewardFrontier env.emulator)
  Act.modify fun inst => { inst with actionPrefix := inst.actionPrefix ++ auto }
  maybeCaptureMapSnapshot env
  Act.modify fun inst => { inst with decisionPoints := inst.decisionPoints.issue root }

/-- What an instance is before it is constructed. -/
def blank (world : W) (access : GameAccess) : Instance W Φ κ β :=
  { session := { world, access } }

/-- The instance that a configuration gives. -/
def Constructs (config : Fields) (world : W) (access : GameAccess)
    (inst : Instance W Φ κ β) : Prop :=
  construct env config (blank world access) = (.ok (), inst)

end Construction

/-!
### Into a combat and out of it

The lease of the game is handed to the phase and taken back. What fails on the way in is
rolled back, and what cannot be rolled back poisons the instance.
-/

section HandOver

variable (env : RunEnv W Φ κ β)

/-- An exception may strike. -/
def strike (step : HandOverStep) : Op W Φ κ β Unit :=
  onSession (Session.inWorld (env.strikes step))

/-- `close` of a phase that is no longer the active one. -/
def closeGiven (phase : Phase Φ κ β) : Op W Φ κ β Unit := fun inst =>
  let (outcome, session, _) := Phase.close env.phases (inst.session, phase)
  (outcome, { inst with session })

/-- The phase as it is now: the active one, if it is that one. -/
def refreshed (phase : Phase Φ κ β) (active : Option (Phase Φ κ β)) : Phase Φ κ β :=
  match active with
  | some current => if current.holder = phase.holder then current else phase
  | none => phase

/-- `close` of a phase, if there is one, whatever comes of it. -/
def closeQuietly : Option (Phase Φ κ β) → Op W Φ κ β Unit
  | none => pure ()
  | some phase => (closeGiven env phase).catching fun _ => pure ()

/-- `_poison_combat_transaction`. -/
def poisonCombatTransaction (phase : Option (Phase Φ κ β)) : Op W Φ κ β Unit := do
  Act.modify fun inst => { inst with faulted := true }
  let inst ← Act.get
  Act.onlyIf inst.combatPhase.isSome
    ((cancelAndReleaseAllBranches env).catching fun _ => pure ())
  let inst ← Act.get
  let phase := phase.map fun phase => refreshed phase inst.combatPhase
  Act.modify fun inst =>
    { inst with combatPhase := none, session := inst.session.poisonMutations }
  closeQuietly env phase
  (onSession (Session.inWorld env.closePool)).catching fun _ => pure ()

/-- The live session, and the phase that adopts the combat. -/
def adoptPhase : Op W Φ κ β (Phase Φ κ β) := do
  let inst ← Act.get
  let holder := inst.nextHolder
  Act.modify fun inst => { inst with nextHolder := inst.nextHolder + 1 }
  let rootState ← onSession (Session.inWorld env.adoptCurrentCombat)
  let inst ← Act.get
  let combat ← Act.ofExcept ((Combat.CombatPhase.initializeLiveCombat env.phases.live
    inst.session.world rootState inst.mapSnapshot inst.roomId true).mapError ofPyException)
  let branches ← onSession (Session.inWorld env.makeBranches)
  pure { holder
         lease := none
         combat := Phase.combatIn combat ()
         branches }

/-- The decision of the combat is published, and the lease handed over. -/
def publishPhase (transfer : GameLease) (phase : Phase Φ κ β) : Op W Φ κ β GameLease := do
  strike env .issue
  Act.modify fun inst => { inst with decisionPoints := inst.decisionPoints.issue root }
  strike env .commitCombat
  onSession (Session.commitLeaseTransfer transfer .combat phase.holder)

/-- The live session takes its lease, and the phase becomes the active one. -/
def installPhase (phase : Phase Φ κ β) (lease : GameLease) : Op W Φ κ β Unit := do
  strike env .acceptCombat
  let inst ← Act.get
  let (_, phase) ← Act.ofExcept (match Phase.acceptTransferredLease lease (inst.session, phase) with
    | (.error error, _) => .error error
    | (.ok _, accepted) => .ok accepted)
  Act.modify fun inst => { inst with combatPhase := some phase }

/-- Back to the run, with the decision that was current. -/
def rollBack (transfer : GameLease) (priorDecision : Option PyStr) : Op W Φ κ β Unit := do
  strike env .restore
  Act.modify fun inst =>
    { inst with decisionPoints := inst.decisionPoints.restoreCurrent root priorDecision }
  strike env .rollback
  onSession (Session.rollbackLeaseTransfer transfer)

/-- `enter_combat_phase`. -/
def enterCombatPhase : Op W Φ κ β Unit := do
  ensureMutable
  let inst ← Act.get
  Act.raiseIf inst.combatPhase.isSome
    (.rejected (reject "a combat phase is already active for this whole-run instance"))
  strike env .beginRun
  let transfer ← onSession Session.beginLeaseTransfer
  let inst ← Act.get
  let priorDecision := inst.decisionPoints.current? root
  let phase ← (adoptPhase env).onError fun _ => rollBack env transfer priorDecision
  let lease ← (publishPhase env transfer phase).onError fun _ => do
    closeGiven env phase
    rollBack env transfer priorDecision
  (installPhase env phase lease).onError fun _ => poisonCombatTransaction env (some phase)

/-- The combat is folded: its branches end, and the phase is closed. -/
def foldPhase (completion : Json) : Op W Φ κ β Unit := do
  Act.modify fun inst => { inst with lastCombatCompletion := some completion }
  cancelAndReleaseAllBranches env
  onPhase (Phase.close env.phases)

/-- The run goes on: it takes the lease back, and plays what leaves no choice. -/
def resumeRun (transfer : GameLease) : Op W Φ κ β Unit := do
  Act.modify fun inst => { inst with combatPhase := none }
  strike env .commitRun
  let lease ← onSession (Session.commitLeaseTransfer transfer .run runHolder)
  strike env .acceptRun
  onSession (Session.acceptTransferredLease lease)
  let auto ← onSession (drainTrivialRewardFrontier env.emulator)
  Act.modify fun inst => { inst with actionPrefix := auto }
  maybeCaptureMapSnapshot env

/-- `leave_combat_phase`. -/
def leaveCombatPhase (completion : Json) : Op W Φ κ β Unit := do
  ensureMutable
  let inst ← Act.get
  Act.raiseIf inst.combatPhase.isNone (.rejected (reject "no active combat phase to leave"))
  strike env .beginCombat
  let transfer ← onPhase Phase.beginLeaseTransfer
  (foldPhase env completion).onError fun _ => do
    let inst ← Act.get
    poisonCombatTransaction env inst.combatPhase
  (resumeRun env transfer).onError fun _ => poisonCombatTransaction env none

end HandOver

/-!
### Commits

An action is committed to the run or to the combat, and goes on the record.
-/

section Commit

variable (env : RunEnv W Φ κ β)

/-- `_record_root_commit`. -/
def recordRootCommit (decisionPointId actionId : PyStr) (releaseBranches issueDecision : Bool) :
    Op W Φ κ β Fields := do
  Act.modify fun inst => { inst with
    rootBranchLog := inst.rootBranchLog ++
      [⟨inst.rootBranchLog.length, decisionPointId, actionId, Api.rootRngId⟩] }
  Act.onlyIf releaseBranches (cancelAndReleaseAllBranches env)
  maybeCaptureMapSnapshot env
  Act.onlyIf issueDecision
    (Act.modify fun inst => { inst with decisionPoints := inst.decisionPoints.issue root })
  let view ← rootView env
  rootDecisionReply view

/-- `str(exc)`. -/
def errorText : PyError → String
  | .rejected rejection => rejection.error
  | .raised _ message => message

/-- The reply to a commit that has failed. -/
def faultReply (error : PyError) : Fields :=
  [("status", .str "faulted"), ("error", .str (.text (errorText error))),
    ("fault_kind", .str (.text Api.faultEmulatorError))]

/-- The instance is poisoned if its live session has advanced. -/
def poisonIfAdvanced : Op W Φ κ β Unit := do
  let inst ← Act.get
  match inst.combatPhase with
  | none => pure ()
  | some phase =>
      Act.onlyIf (phase.combat.rootCommitAdvanced ∧ inst.faulted = false)
        (poisonCombatTransaction env (some phase))

/-- The step of a combat. What fails before the live session has advanced leaves
    the instance as it is. -/
def stepCombat (chosen : RunAction) : Op W Φ κ β (Option Fields) :=
  Act.catching (do
    onPhase (Phase.commitRootAction env.phases chosen)
    pure none) fun error => do
      poisonIfAdvanced env
      pure (some (faultReply error))

/-- What follows a step of a combat: it may be over, and it is recorded. -/
def settleCombat (decisionPointId actionId : PyStr) : Op W Φ κ β Fields := do
  let inst ← Act.get
  match inst.combatPhase.bind fun phase => env.combatCompletion phase.combat.rootState with
  | some completion => do
      leaveCombatPhase env completion
      recordRootCommit env decisionPointId actionId false true
  | none => recordRootCommit env decisionPointId actionId true true

/-- `commit_action` while a combat is live. -/
def commitCombatAction (decisionPointId actionId : PyStr) (chosen : RunAction) :
    Op W Φ κ β Fields := do
  let failed ← stepCombat env chosen
  match failed with
  | some reply => pure reply
  | none =>
      -- The live session has advanced, so a failure from here on faults the run.
      (settleCombat env decisionPointId actionId).catching fun error => do
        let inst ← Act.get
        Act.onlyIf (inst.faulted = false) (poisonCombatTransaction env inst.combatPhase)
        pure (faultReply error)

/-- The action of a commit outside a combat, and whether it has entered one. -/
def advanceRun (view : View) (chosen : RunAction) : Op W Φ κ β Bool := do
  if view.boundary = .mapSelect then
    onSession (Session.chooseRoom env.emulator chosen.actionId)
    Act.modify fun inst => { inst with roomId := some chosen.actionId }
    let roomContext ← onSession (Session.inWorld env.emulator.getRoomContext)
    if roomContext.roomType = some "CombatRoom" then
      Act.modify fun inst => { inst with actionPrefix := [] }
      enterCombatPhase env
      pure true
    else
      let auto ← onSession (drainTrivialRewardFrontier env.emulator)
      Act.modify fun inst => { inst with actionPrefix := auto }
      pure false
  else
    onSession (Session.step env.emulator chosen.actionId)
    Act.modify fun inst => { inst with actionPrefix := inst.actionPrefix ++ [chosen.actionId] }
    let auto ← onSession (drainTrivialRewardFrontier env.emulator)
    Act.modify fun inst => { inst with actionPrefix := inst.actionPrefix ++ auto }
    pure false

/-- `commit_action` outside a combat. -/
def commitRunAction (decisionPointId actionId : PyStr) (view : View) (chosen : RunAction) :
    Op W Φ κ β Fields := do
  let advanced ← Act.catching (do
    let enteredCombat ← advanceRun env view chosen
    pure (Except.ok enteredCombat)) fun error => pure (.error (faultReply error))
  match advanced with
  | .error reply => pure reply
  | .ok enteredCombat => recordRootCommit env decisionPointId actionId true (!enteredCombat)

/-- `commit_action`. -/
def commitAction (decisionPointId actionId : PyStr) : Op W Φ κ β Fields := do
  ensureMutable
  let inst ← Act.get
  Act.ofExcept (inst.decisionPoints.validate root decisionPointId)
  let view ← rootView env
  Act.raiseIf (view.boundary = .runTerminal) (.rejected (reject
    "root has already reached run_terminal; no further commit_action possible"))
  let chosen ← Act.ofExcept (resolveActionId view.legalActions actionId)
  let inst ← Act.get
  if inst.combatPhase.isSome then commitCombatAction env decisionPointId actionId chosen
  else commitRunAction env decisionPointId actionId view chosen

/-- `close`. -/
def close : Op W Φ κ β Unit := do
  let inst ← Act.get
  Act.onlyIf (inst.closed = false) (do
    Act.modify fun inst => { inst with closed := true }
    Act.ensuring
      (Act.onlyIf inst.combatPhase.isSome
        (Act.ensuring (cancelAndReleaseAllBranches env) (do
          onPhase (Phase.close env.phases)
          Act.modify fun inst => { inst with combatPhase := none })))
      (Act.ensuring
        (Act.modify fun inst => { inst with eventRngRegistry := inst.eventRngRegistry.releaseAll })
        (Act.ensuring (onSession (Session.inWorld env.closePool))
          (Act.modify fun inst => { inst with session := inst.session.close }))))

end Commit

end Instance

end WholeRun

end STS2RL
