import STS2RL.WholeRun.CombatBatch

/-!
# Branching at an Event

Event branches are played by the workers of the run, one at a time or as a
batch. A branch is validated and prepared without a change, then committed: its
id is used up, it holds on to its hypothesis, and it has a record. A batch whose
commit fails is rolled back before anybody has seen it.

The batch operation belongs to the facade for beam search. It is the one
operation that does not look whether the instance is faulted.

## Main definitions

* `validateEventBranch`, `prepareEventBranch`: What is checked and built.
* `commitPreparedBranch`, `rollbackPreparedBranch`: A record, and its undoing.
* `finalizeEventBranch`: What a result comes to.
* `emulateAction`, `emulateActions`, `Beam.emulateAction`, `Beam.emulateActions`:
  The operations of the two facades.
* `Facade`, `Instance.call`: A request to an instance.
-/

namespace STS2RL

namespace WholeRun

open Api (PyError Fields EmulateItem RngKey reject pyRepr)

variable {W Φ κ β α : Type}

/-- `_BranchSpec`, of an event branch. -/
structure BranchSpec where
  parentView : View
  item : EmulateItem
  chosenActionId : Int

/-- A spec with its work and its record. -/
structure PreparedEvent (κ β : Type) where
  spec : BranchSpec
  workItem : EventWorkItem
  book : Book κ β

namespace Instance

/-!
### Validation

A branch at an event is checked against the view of its parent.
-/

section Validation

variable (env : RunEnv W Φ κ β)

/-- `_view_for`, for a branch with a record. -/
def bookViewFor (inst : Instance W Φ κ β) (branchId : PyStr) : Except PyError View :=
  match inst.bookkeeping.get? branchId with
  | none => .error (unknownBranch branchId)
  | some book =>
      if book.status = .cancelled ∨ book.status = .released ∨ book.status = .faulted then
        .error (.rejected (reject ("branch_id " ++ pyRepr branchId ++ " is " ++ book.status.text ++
          " and cannot be used")))
      else if book.terminal then
        .error (.rejected (reject ("branch_id " ++ pyRepr branchId ++
          " has no current Decision to branch from")))
      else
        match book.view with
        | none => .error (.rejected (reject ("branch_id " ++ pyRepr branchId ++
            " has no current Decision to branch from")))
        | some (.combat _) => .error (.raised "AttributeError"
            "'_CombatPhaseView' object has no attribute 'chain_blocked'")
        | some (.run view) =>
            if view.chainBlocked then
              .error (.rejected (reject ("branch_id " ++ pyRepr branchId ++
                " reached a new map boundary; further emulate_action from a non-root Branch " ++
                "across a map boundary is not supported in this pass")))
            else .ok view

/-- `_view_for`. -/
def viewFor (branchId : PyStr) : Op W Φ κ β View :=
  if branchId = root then rootView env
  else do
    let inst ← Act.get
    Act.ofExcept (bookViewFor inst branchId)

/-- `_validate_common_branch`, with the view of the parent. -/
def validateCommonBranch (inst : Instance W Φ κ β) (item : EmulateItem) (parentView : View) :
    Except PyError Unit :=
  if parentView.boundary = .runTerminal then
    .error (.rejected (reject ("parent_branch_id " ++ pyRepr item.parentBranchId ++
      " has reached run_terminal; cannot branch further")))
  else if parentView.mapSnapshot.isNone then
    .error (.rejected (reject ("parent_branch_id " ++ pyRepr item.parentBranchId ++
      " has not reached a map_select boundary yet; emulate_action is unavailable until the " ++
      "first Map Decision is reached")))
  else
    match checkLineage inst item.parentBranchId item.rngId with
    | .error error => .error error
    | .ok () => inst.decisionPoints.validate item.parentBranchId item.decisionPointId

/-- `_validate_event_branch`, with the view of the parent. -/
def validateEventBranch (inst : Instance W Φ κ β) (item : EmulateItem) (parentView : View) :
    Except PyError BranchSpec :=
  if inst.branchIds.isKnown item.branchId then
    .error (Api.BranchIdRegistry.alreadyUsed item.branchId)
  else
    match validateCommonBranch inst item parentView with
    | .error error => .error error
    | .ok () =>
        if parentView.boundary ≠ .eventChoice then
          .error (.rejected ⟨"Active Event RNG hypothesis is not available at this boundary.",
            some "rng_hypothesis_unsupported_at_boundary"⟩)
        else
          (resolveChosenAction parentView.legalActions item.actionId).map fun chosen =>
            ⟨parentView, item, chosen.actionId⟩

/-- `active_branch_count`. -/
def activeBranchCount (inst : Instance W Φ κ β) : Nat :=
  (inst.bookkeeping.entries.filter fun (_, book) =>
    book.status = .completed ∧ book.terminal = false).length

/-- The refusal of a batch that does not fit. -/
def tooManyBranches (limit : Nat) : PyError :=
  .rejected (reject ("active Branch count would exceed max_branches=" ++ toString limit))

/-- The plan of a branch: a new one at the root, the parent's elsewhere. -/
def eventRngPlanFor (inst : Instance W Φ κ β) (spec : BranchSpec) :
    Except PyError EventRngReplayPlan :=
  let item := spec.item
  if item.parentBranchId = root then
    let key : RngKey := (item.parentBranchId, item.decisionPointId, item.rngId)
    match spec.parentView.eventRngState with
    | none => .error (.raised "AssertionError" "")
    | some base =>
        (inst.eventRngRegistry.prepareState env.sha256 key base item.rngId).map fun state =>
          ⟨key, state, spec.parentView.actionPrefix.length⟩
  else
    match (inst.bookkeeping.get? item.parentBranchId).bind Book.eventRngPlan with
    | none => .error (.raised "AssertionError" "")
    | some plan => .ok plan

/-- `_prepare_event_branch`. -/
def prepareEventBranch (inst : Instance W Φ κ β) (spec : BranchSpec) :
    Except PyError (PreparedEvent κ β) :=
  (eventRngPlanFor env inst spec).map fun plan =>
    let item := spec.item
    let view := spec.parentView
    { spec
      workItem :=
        { workId := item.branchId.append ("-" ++ toString item.rngId)
          contextId := env.deriveContextId view
          choiceType := view.choiceType
          mapSnapshot := view.mapSnapshot
          roomId := view.roomId
          actionPrefix := view.actionPrefix
          targetBoundary := view.boundary
          resolveActionId := spec.chosenActionId
          eventRngPlan := some plan }
      book :=
        { parentPublicId := item.parentBranchId
          branchLog := inst.branchLogFor item
          history := inst.parentHistory item.parentBranchId
          rngId := item.rngId
          eventRngPlan := some plan } }

end Validation

/-!
### Commits

A prepared branch is committed in three steps, and a batch that fails on the way takes
back what it did.
-/

section Commit

/-- A branch holds on to its hypothesis. -/
def commitHypothesis (branchId : PyStr) : Option EventRngReplayPlan → Op W Φ κ β Unit
  | none => pure ()
  | some plan => do
      let inst ← Act.get
      let registry ← Act.ofExcept
        (inst.eventRngRegistry.commitBranch plan.hypothesisKey plan.overrideState branchId)
      Act.modify fun inst => { inst with eventRngRegistry := registry }

/-- `_commit_prepared_branch`. Storing the record is the last step, and nothing
    fails after it. -/
def commitPreparedBranch (prepared : PreparedEvent κ β) : Op W Φ κ β Unit := do
  let branchId := prepared.spec.item.branchId
  let inst ← Act.get
  let branchIds ← Act.ofExcept (inst.branchIds.register branchId)
  Act.modify fun inst => { inst with branchIds }
  (commitHypothesis branchId prepared.book.eventRngPlan).onError fun _ =>
    Act.modify fun inst => { inst with branchIds := inst.branchIds.rollbackRegistration branchId }
  Act.modify fun inst => { inst with
    bookkeeping := inst.bookkeeping.set branchId prepared.book }

/-- `_rollback_prepared_branch`. -/
def rollbackPreparedBranch (prepared : PreparedEvent κ β) (inst : Instance W Φ κ β) :
    Instance W Φ κ β :=
  let branchId := prepared.spec.item.branchId
  { inst with
    bookkeeping := inst.bookkeeping.erase branchId
    decisionPoints := inst.decisionPoints.clear branchId
    eventRngRegistry := match prepared.book.eventRngPlan with
      | none => inst.eventRngRegistry
      | some plan => inst.eventRngRegistry.releaseBranch plan.hypothesisKey branchId
    branchIds := inst.branchIds.rollbackRegistration branchId }

/-- The branches that are committed, up to the first that fails. -/
def commitPrefix : List (PreparedEvent κ β) →
    Op W Φ κ β (List (PreparedEvent κ β) × Option PyError)
  | [] => pure ([], none)
  | prepared :: rest => do
      let failure ← Act.catching (do
        commitPreparedBranch prepared
        pure none) fun error => pure (some error)
      match failure with
      | some error => pure ([], some error)
      | none => do
          let (committed, failure) ← commitPrefix rest
          pure (prepared :: committed, failure)

/-- The hypotheses that the batch is for. -/
def batchKeys (prepared : List (PreparedEvent κ β)) : List RngKey :=
  prepared.filterMap fun entry => entry.book.eventRngPlan.map EventRngReplayPlan.hypothesisKey

/-- `restore_generations`, on the instance. -/
def restoreGenerations (saved : List (RngKey × Nat)) : Op W Φ κ β Unit :=
  Act.zoom Instance.eventRngRegistry (fun eventRngRegistry inst => { inst with eventRngRegistry })
    (EventRngHypothesisRegistry.restoreGenerations saved)

/-- All branches are committed, or none. -/
def commitBatch (prepared : List (PreparedEvent κ β)) : Op W Φ κ β Unit := do
  let inst ← Act.get
  let saved := inst.eventRngRegistry.snapshotGenerations (batchKeys prepared)
  let (committed, failure) ← commitPrefix prepared
  match failure with
  | none => pure ()
  | some error => do
      Act.modify fun inst =>
        committed.reverse.foldl (fun inst entry => rollbackPreparedBranch entry inst) inst
      restoreGenerations saved
      Act.raise error

end Commit

/-!
### Results

What becomes of the record of a branch with the result of its worker.
-/

section Finalize

variable (env : RunEnv W Φ κ β)

/-- The branch is faulted, and lets go of its hypothesis. -/
def faultEventBranch (branchId : PyStr) (inst : Instance W Φ κ β) : Instance W Φ κ β :=
  releaseEventRngReference branchId
    (modifyBook branchId (fun book => { book with status := .faulted }) inst)

/-- `_build_child_view`. -/
def buildChildView (parentView : View) (chosenActionId : Int) (step : ChoiceStepResult) : View where
  legalActions := step.settledLegalActions
  boundary := step.settledObservation.boundary
  observation := step.settledObservation
  roomContext := step.settledRoomContext
  mapSnapshot := parentView.mapSnapshot
  roomId := if parentView.choiceType = "map" then some chosenActionId else parentView.roomId
  actionPrefix :=
    if parentView.choiceType = "map" then step.autoActionIds
    else parentView.actionPrefix ++ [chosenActionId] ++ step.autoActionIds
  choiceType := choiceTypeFromBoundary step.settledObservation.boundary
  chainBlocked := step.settledObservation.boundary = .mapSelect
  eventRngState := none

/-- The reply for a branch that has ended the run. -/
def finalizeRunTerminal (item : EmulateItem) (step : ChoiceStepResult) : Op W Φ κ β Fields :=
  match requireTerminalOutcome (some step.settledObservation.outcome)
      ("whole-run branch " ++ pyRepr item.branchId) validWholeRunTerminalOutcomes with
  | .error error => do
      Act.modify (faultEventBranch item.branchId)
      Act.raise error
  | .ok outcome => do
      Act.modify (modifyBook item.branchId fun book =>
        { book with outcome := some outcome, terminal := true })
      Act.modify fun inst => { inst with decisionPoints := inst.decisionPoints.issue item.branchId }
      let inst ← Act.get
      let masked ← Act.ofExcept (runTerminalDto outcome)
      pure (completedReply (originFields item ++ decisionFields inst item.branchId
        (((inst.bookkeeping.get? item.branchId).map Book.branchLog).getD []) masked))

/-- The reply for a branch that has come to a decision. -/
def finalizeDecision (spec : BranchSpec) (step : ChoiceStepResult) : Op W Φ κ β Fields := do
  let item := spec.item
  let view := buildChildView spec.parentView spec.chosenActionId step
  Act.modify (modifyBook item.branchId fun book => { book with view := some (.run view) })
  Act.modify fun inst => { inst with decisionPoints := inst.decisionPoints.issue item.branchId }
  let inst ← Act.get
  match inst.bookkeeping.get? item.branchId with
  | none => Act.raise (.raised "KeyError" (pyRepr item.branchId))
  | some book => do
      let fields ← Act.ofExcept
        (decisionResponseFields inst item.branchId view book.branchLog book.history)
      pure (completedReply (fields ++ originFields item))

/-- `_finalize_event_branch`. -/
def finalizeEventBranch (spec : BranchSpec) (result : ChoiceResult) : Op W Φ κ β Fields := do
  let item := spec.item
  if result.success = false then
    Act.modify (faultEventBranch item.branchId)
    pure (faultedBranchResult item (result.message.getD "") (result.faultKind.getD ""))
  else
    match result.step with
    | none => do
        Act.modify (faultEventBranch item.branchId)
        Act.raise (.raised "RuntimeError"
          "successful Whole Run branch result is missing a step")
    | some step => do
        Act.modify (modifyBook item.branchId fun book =>
          { book with history := book.history.observeRoomContext step.settledRoomContext })
        if step.settledObservation.boundary = .runTerminal then finalizeRunTerminal item step
        else finalizeDecision spec step

/-- Whether an exception is a `TimeoutError`, and its text. -/
def timeoutText : PyError → Option String
  | .raised "TimeoutError" message => some message
  | _ => none

end Finalize

/-!
### One branch

The request for a single branch, on the facade without batches.
-/

section Base

variable (env : RunEnv W Φ κ β)

/-- A member of a reply. -/
def replyMember (fields : Fields) (name : PyStr) : Except PyError Json :=
  match Dict.lookupL name fields with
  | none => .error (.raised "KeyError" (pyRepr name))
  | some value => .ok value

/-- The reply to the one item of a batch. -/
def onlyReply (branchId : PyStr) (response : Fields) : Except PyError Json :=
  match replyMember response "branch_results" with
  | .ok (.obj results) => replyMember results branchId
  | .ok _ => .error (.raised "TypeError" "branch_results is not an object")
  | .error error => .error error

/-- A worker of the run plays one committed branch. -/
def dispatchOne (prepared : PreparedEvent κ β) : Op W Φ κ β Json := do
  let item := prepared.spec.item
  let results ← Act.catching (do
    let results ← onSession (Session.inWorld (env.dispatchChoiceWorkItems [prepared.workItem]))
    pure (Except.ok results)) fun error => do
      Act.modify (faultEventBranch item.branchId)
      match timeoutText error with
      | some message => pure (.error (Json.obj (faultedBranchResult item
          (if message = "" then "Whole Run branch execution timed out" else message)
          "task_timeout")))
      | none => Act.raise error
  match results with
  | .error reply => pure reply
  | .ok [] => Act.raise (.raised "IndexError" "list index out of range")
  | .ok (result :: _) => do
      let fields ← finalizeEventBranch prepared.spec result
      pure (.obj fields)

/-- `emulate_action` at an event. -/
def emulateEventAction (item : EmulateItem) (simulationOptions : Option Fields) :
    Op W Φ κ β Json := do
  ensureMutable
  Act.ofExcept (validateStopCondition simulationOptions)
  let inst ← Act.get
  Act.raiseIf (inst.branchIds.isKnown item.branchId)
    (Api.BranchIdRegistry.alreadyUsed item.branchId)
  let parentView ← viewFor env item.parentBranchId
  let inst ← Act.get
  let spec ← Act.ofExcept (validateEventBranch inst item parentView)
  Act.raiseIf (env.maxBranches ≤ inst.activeBranchCount) (tooManyBranches env.maxBranches)
  let prepared ← Act.ofExcept (prepareEventBranch env inst spec)
  commitPreparedBranch prepared
  dispatchOne env prepared

/-- `emulate_action` while a combat is live. -/
def emulateCombatAction (item : EmulateItem) (simulationOptions : Option Fields) :
    Op W Φ κ β Json := do
  let response ← emulateCombatPhaseActions env [item] simulationOptions
  Act.ofExcept (onlyReply item.branchId response)

/-- `emulate_action`. -/
def emulateAction (item : EmulateItem) (simulationOptions : Option Fields) : Op W Φ κ β Json := do
  let inst ← Act.get
  if inst.combatPhase.isSome then emulateCombatAction env item simulationOptions
  else emulateEventAction env item simulationOptions

/-- `emulate_actions`. -/
def emulateActions (items : List EmulateItem) (simulationOptions : Option Fields) :
    Op W Φ κ β Json := do
  let inst ← Act.get
  Act.raiseIf inst.combatPhase.isNone combatBranchingUnavailable
  let response ← emulateCombatPhaseActions env items simulationOptions
  pure (.obj response)

end Base

namespace Beam

variable (env : RunEnv W Φ κ β)

/-- `start_instance_response`. -/
def startInstanceResponse (instanceId : PyStr) : Op W Φ κ β Fields := do
  let response ← Instance.startInstanceResponse env instanceId
  let capabilities : Fields := [("max_emulate_actions_items", .int env.maxBranches),
    ("emulate_actions_boundaries", .list [.str "event_choice", .str "pending_choice",
      .str "stable"])]
  pure (response ++ capabilities)

/-- `_parent_boundary`, as far as it is an event. -/
def parentAtEvent (parentBranchId : PyStr) : Op W Φ κ β Bool :=
  if parentBranchId = root then do
    let observation ← onSession (Session.inWorld env.emulator.getObservation)
    pure (observation.boundary = .eventChoice)
  else do
    let inst ← Act.get
    match (inst.bookkeeping.get? parentBranchId).bind Book.view with
    | some (.run view) => pure (view.boundary = .eventChoice)
    | _ => pure false

/-- `emulate_action`. -/
def emulateAction (item : EmulateItem) (simulationOptions : Option Fields) : Op W Φ κ β Json := do
  let inst ← Act.get
  if inst.combatPhase.isSome then emulateCombatAction env item simulationOptions
  else do
    let atEvent ← parentAtEvent env item.parentBranchId
    if atEvent then Instance.emulateAction env item simulationOptions
    else Act.raise combatBranchingUnavailable

/-- No branch id comes twice. -/
def checkDuplicates : List PyStr → List EmulateItem → Except PyError Unit
  | _, [] => .ok ()
  | seen, item :: rest =>
      if item.branchId ∈ seen then
        .error (.rejected (reject ("branch_id " ++ pyRepr item.branchId ++
          " is duplicated within this batch")))
      else checkDuplicates (item.branchId :: seen) rest

/-- No branch id comes twice, and no parent is among them. -/
def checkBatchIds (items : List EmulateItem) : Except PyError Unit :=
  match checkDuplicates [] items with
  | .error error => .error error
  | .ok () =>
      if items.any fun item => item.parentBranchId ∈ items.map EmulateItem.branchId then
        .error (.rejected (reject
          "emulate_actions items may only use parents that existed before the batch"))
      else .ok ()

/-- The views of the parents, each read once. -/
def parentViews : List EmulateItem → List (PyStr × View) → Op W Φ κ β (List (PyStr × View))
  | [], views => pure views
  | item :: rest, views =>
      if (Dict.lookupL item.parentBranchId views).isSome then parentViews rest views
      else do
        let view ← viewFor env item.parentBranchId
        parentViews rest (views ++ [(item.parentBranchId, view)])

/-- `_is_event_batch`. -/
def isEventBatch (views : List (PyStr × View)) : Except PyError Bool :=
  if views.any fun entry => entry.2.boundary = .eventChoice then
    if views.all fun entry => entry.2.boundary = .eventChoice then .ok true
    else .error (.rejected (reject
      "emulate_actions cannot mix Active Event and non-Event parent boundaries"))
  else .ok false

/-- The specs of the items. -/
def validateAll (inst : Instance W Φ κ β) (views : List (PyStr × View)) :
    List EmulateItem → Except PyError (List BranchSpec)
  | [] => .ok []
  | item :: rest =>
      match Dict.lookupL item.parentBranchId views with
      | none => .error (.raised "KeyError" (pyRepr item.parentBranchId))
      | some view =>
          match validateEventBranch inst item view with
          | .error error => .error error
          | .ok spec => (validateAll inst views rest).map (spec :: ·)

/-- The work and the records of the specs. -/
def prepareAll (inst : Instance W Φ κ β) : List BranchSpec →
    Except PyError (List (PreparedEvent κ β))
  | [] => .ok []
  | spec :: rest =>
      match prepareEventBranch env inst spec with
      | .error error => .error error
      | .ok prepared => (prepareAll inst rest).map (prepared :: ·)

/-- The checks of a batch, its capacity and its preparation. -/
def prepareBatch (inst : Instance W Φ κ β) (views : List (PyStr × View))
    (items : List EmulateItem) : Except PyError (List (PreparedEvent κ β)) :=
  match isEventBatch views with
  | .error error => .error error
  | .ok false => .error combatBranchingUnavailable
  | .ok true =>
      match validateAll inst views items with
      | .error error => .error error
      | .ok specs =>
          if env.maxBranches < inst.activeBranchCount + specs.length then
            .error (.rejected (reject ("submitting " ++ toString specs.length ++
              " Branch(es) would exceed max_branches=" ++ toString env.maxBranches ++
              " (currently " ++ toString inst.activeBranchCount ++ " active)")))
          else prepareAll env inst specs

/-- `_best_effort_release_prepared`. -/
def bestEffortReleasePrepared (prepared : List (PreparedEvent κ β)) : Op W Φ κ β Unit :=
  if prepared = [] then pure ()
  else Act.catching (do
    let _ ← releaseBranches env (prepared.map fun entry => entry.spec.item.branchId)
    pure ()) fun _ => pure ()

/-- The batch has timed out. -/
def timeOutBatch (message : String) (prepared : List (PreparedEvent κ β)) : Op W Φ κ β Json := do
  Act.modify fun inst =>
    prepared.foldl (fun inst entry => faultEventBranch entry.spec.item.branchId inst) inst
  pure (.obj (completedReply [("branch_results", .obj (prepared.map fun entry =>
    (entry.spec.item.branchId, .obj (faultedBranchResult entry.spec.item
      (if message = "" then "Whole Run branch batch timed out" else message)
      "task_timeout"))))]))

/-- The results, one after another. -/
def finalizeAll : List (PreparedEvent κ β × ChoiceResult) → Op W Φ κ β (List (PyStr × Json)) :=
  Act.collect fun (entry, result) => do
    let fields ← finalizeEventBranch entry.spec result
    pure (entry.spec.item.branchId, .obj fields)

/-- `_dispatch_prepared_batch`. -/
def dispatchPreparedBatch (prepared : List (PreparedEvent κ β)) : Op W Φ κ β Json := do
  let outcome ← Act.catching (do
    let results ← onSession (Session.inWorld
      (env.dispatchChoiceWorkItems (prepared.map PreparedEvent.workItem)))
    pure (Except.ok results)) fun error => pure (.error error)
  match outcome with
  | .error error =>
      match timeoutText error with
      | some message => timeOutBatch message prepared
      | none => do
          bestEffortReleasePrepared env prepared
          Act.raise error
  | .ok results =>
      if results.length ≠ prepared.length then do
        bestEffortReleasePrepared env prepared
        Act.raise (.raised "RuntimeError" "WholeRunWorkerPool returned an incomplete batch")
      else do
        let replies ← (finalizeAll (prepared.zip results)).onError fun _ =>
          bestEffortReleasePrepared env prepared
        pure (.obj (completedReply [("branch_results", .obj replies)]))

/-- The event transaction of `emulate_actions`. -/
def emulateEventBatch (items : List EmulateItem) : Op W Φ κ β Json := do
  let views ← parentViews env items []
  let inst ← Act.get
  let prepared ← Act.ofExcept (prepareBatch env inst views items)
  commitBatch prepared
  dispatchPreparedBatch env prepared

/-- `emulate_actions`. -/
def emulateActions (items : List EmulateItem) (simulationOptions : Option Fields) :
    Op W Φ κ β Json := do
  Act.ofExcept (validateStopCondition simulationOptions)
  checkBatchSize env items
  Act.ofExcept (checkBatchIds items)
  let inst ← Act.get
  if inst.combatPhase.isSome then do
    let response ← emulateCombatPhaseActions env items simulationOptions
    pure (.obj response)
  else emulateEventBatch env items

end Beam

/-- The two facades of an instance. -/
inductive Facade where
  | base
  | beam
  deriving DecidableEq

/-- A request that an instance serves. -/
def call (env : RunEnv W Φ κ β) (facade : Facade) : Api.Call → Op W Φ κ β Json
  | .getDecision branchId => Json.obj <$> getDecision env branchId
  | .commitAction decisionPointId actionId => Json.obj <$> commitAction env decisionPointId actionId
  | .emulateAction item simulationOptions =>
      match facade with
      | .base => emulateAction env item simulationOptions
      | .beam => Beam.emulateAction env item simulationOptions
  | .emulateActions items simulationOptions =>
      match facade with
      | .base => emulateActions env items simulationOptions
      | .beam => Beam.emulateActions env items simulationOptions
  | .cancelBranches branchIds => Json.obj <$> cancelBranches env branchIds
  | .releaseBranches branchIds => Json.obj <$> releaseBranches env branchIds
  | .getBranchStatus branchIds => Json.obj <$> getBranchStatus env branchIds

/-- A request to an instance. -/
inductive Request where
  | start (instanceId : PyStr)
  | call (call : Api.Call)
  | close

/-- One request. The instance stays as it is left, also by one that raises. -/
def step (env : RunEnv W Φ κ β) (facade : Facade) (inst : Instance W Φ κ β) :
    Request → Instance W Φ κ β × Except PyError Json
  | .start instanceId =>
      let response := match facade with
        | .base => startInstanceResponse env instanceId
        | .beam => Beam.startInstanceResponse env instanceId
      let (outcome, inst) := response inst
      (inst, outcome.map Json.obj)
  | .call request =>
      let (outcome, inst) := Instance.call env facade request inst
      (inst, outcome)
  | .close =>
      let (outcome, inst) := close env inst
      (inst, outcome.map fun _ => .null)

end Instance

end WholeRun

end STS2RL
