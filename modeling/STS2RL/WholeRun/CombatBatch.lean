import STS2RL.WholeRun.Instance
import Mathlib.Data.Finset.Card

/-!
# Branching in a Combat

A batch of branches of the active combat. Its items are checked before anything
is changed. From then on a failure takes back the whole batch: the branches the
phase has made are cancelled and released, the public records removed, and the
hypotheses and the reservations put back.

## Main definitions

* `admitItems`: The checks.
* `prepareItem`, `registerAll`, `settleResult`: What is done for the items.
* `unwind`: What takes a batch back.
* `emulateCombatPhaseActions`: A batch.
-/

namespace STS2RL

namespace WholeRun

open Api (PyError Fields EmulateItem reject pyRepr)

variable {W Φ κ β α : Type}

/-- An item that passed the checks. -/
structure Admitted (κ β : Type) where
  item : EmulateItem
  view : PhaseView κ β
  context : Combat.DecisionContext κ β
  chosen : RunAction

/-- An item with its work. -/
structure PreparedCombat (κ β : Type) where
  item : EmulateItem
  workItem : Combat.WorkItem κ β
  parentInternalId : Option String
  branchLog : List LogEntry
  history : HistoryBuilder

namespace Instance

/-- `_validate_stop_condition`. -/
def validateStopCondition (simulationOptions : Option Fields) : Except PyError Unit :=
  match Dict.lookupL (.text "stop_condition") (simulationOptions.getD []) with
  | none => .ok ()
  | some .null => .ok ()
  | some stopCondition =>
      if stopCondition = .str "next_decision" then .ok ()
      else .error (.rejected (reject ("stop_condition " ++ Api.jsonRepr stopCondition ++
        " is not supported for whole_run instances")))

/-- The seconds a poll may take. The time limit is an integer or `None`, if it is given. -/
def pollTimeout (simulationOptions : Option Fields) : Except PyError ℚ :=
  match Dict.lookupL (.text "max_time_ms") (simulationOptions.getD []) with
  | none => .ok (defaultMaxTimeMs / 1000)
  | some (.int milliseconds) =>
      if PyNumber.overflowsFloat milliseconds then
        .error (.raised "OverflowError" "int too large to convert to float")
      else .ok (milliseconds / 1000)
  | some value => .error (.raised "TypeError" ("unsupported operand type(s) for /: '" ++
      Api.typeName value ++ "' and 'float'"))

/-- `_resolve_chosen_action`. -/
def resolveChosenAction (legalActions : List RunAction) (actionId : PyStr) :
    Except PyError RunAction :=
  match resolveActionId legalActions actionId with
  | .error error => .error error
  | .ok chosen =>
      if chosen.isAvailable then .ok chosen
      else .error (.rejected (reject ("action_id " ++ pyRepr actionId ++
        " is not currently available")))

/-- The refusal of a parent that is not completed. -/
def cannotBeExtended (parentId : PyStr) (status : BookStatus) : PyError :=
  .rejected (reject ("parent_branch_id " ++ pyRepr parentId ++ " is " ++ status.text ++
    " and cannot be extended"))

/-- The refusal of a parent that the phase does not own. -/
def notOwned (parentId : PyStr) : PyError :=
  .rejected (reject ("parent_branch_id " ++ pyRepr parentId ++
    " is not owned by the active CombatPhase"))

/-- The refusal of a branch where no combat is on. -/
def combatBranchingUnavailable : PyError :=
  .rejected (reject "combat branching requires an active CombatPhase; Whole Run will not replay a room prefix")

/-- `_combat_phase_view_for`. -/
def combatPhaseViewFor (env : RunEnv W Φ κ β) (inst : Instance W Φ κ β) (phase : Phase Φ κ β)
    (branchId : PyStr) : Except PyError (PhaseView κ β) :=
  if branchId = root then phase.rootView env.phases
  else
    match inst.bookkeeping.get? branchId with
    | none => .error (.rejected (reject ("parent_branch_id " ++ pyRepr branchId ++
        " does not exist")))
    | some book =>
        if book.status = .cancelled ∨ book.status = .released ∨ book.status = .faulted then
          .error (cannotBeExtended branchId book.status)
        else if book.terminal then
          .error (.rejected (reject ("parent_branch_id " ++ pyRepr branchId ++
            " ended at the combat boundary; combat_completed branches are leaves because " ++
            "combat snapshots carry no run position")))
        else
          match book.view with
          | some (.combat view) => .ok view
          | _ => .error (notOwned branchId)

/-- The refusal of an item whose RNG id is not its parent's. -/
def lineageMismatch (parentId : PyStr) (rngId given : Int) : PyError :=
  .rejected (reject ("non-root parent_branch_id " ++ pyRepr parentId ++ " requires rng_id=" ++
    toString rngId ++ " (its own lineage rng_id), got " ++ toString given))

/-- A branch that is not the root keeps the rng id of its parent. -/
def checkLineage (inst : Instance W Φ κ β) (parentId : PyStr) (rngId : Int) : Except PyError Unit :=
  if parentId = root then .ok ()
  else
    match inst.bookkeeping.get? parentId with
    | none => .error (.raised "KeyError" (pyRepr parentId))
    | some book =>
        if rngId ≠ book.rngId then .error (lineageMismatch parentId book.rngId rngId) else .ok ()

/-- The checks of one item, after those before it. -/
def admitItem (env : RunEnv W Φ κ β) (inst : Instance W Φ κ β) (phase : Phase Φ κ β)
    (seen : List PyStr) (item : EmulateItem) : Except PyError (Admitted κ β) :=
  if item.branchId ∈ seen then
    .error (.rejected (reject ("branch_id " ++ pyRepr item.branchId ++
      " is duplicated within this batch")))
  else if inst.branchIds.isKnown item.branchId then
    .error (Api.BranchIdRegistry.alreadyUsed item.branchId)
  else if item.parentBranchId = item.branchId ∨ item.parentBranchId ∈ seen then
    .error (.rejected (reject
      "emulate_actions items may only use parents that existed before the batch"))
  else
    match combatPhaseViewFor env inst phase item.parentBranchId with
    | .error error => .error error
    | .ok view =>
        match view.decisionContext with
        | none => .error (.rejected (reject (phase.rootBranchingUnavailableReason.getD
            "root is not branchable: no stable snapshot anchor is established")))
        | some context =>
            match checkLineage inst item.parentBranchId item.rngId with
            | .error error => .error error
            | .ok () =>
                match inst.decisionPoints.validate item.parentBranchId item.decisionPointId with
                | .error error => .error error
                | .ok () =>
                    (resolveChosenAction view.legalActions item.actionId).map fun chosen =>
                      ⟨item, view, context, chosen⟩

/-- The checks of all items, in order. -/
def admitItems (env : RunEnv W Φ κ β) (inst : Instance W Φ κ β) (phase : Phase Φ κ β) :
    List PyStr → List EmulateItem → Except PyError (List (Admitted κ β))
  | _, [] => .ok []
  | seen, item :: rest =>
      match admitItem env inst phase seen item with
      | .error error => .error error
      | .ok admitted =>
          (admitItems env inst phase (item.branchId :: seen) rest).map (admitted :: ·)

/-- The history that a branch of the parent goes on from. -/
def parentHistory (inst : Instance W Φ κ β) (parentId : PyStr) : HistoryBuilder :=
  if parentId = root then inst.rootHistory
  else ((inst.bookkeeping.get? parentId).map Book.history).getD {}

/-- The log that a branch of the parent goes on from. -/
def parentLog (inst : Instance W Φ κ β) (parentId : PyStr) : List LogEntry :=
  if parentId = root then inst.rootBranchLog
  else ((inst.bookkeeping.get? parentId).map Book.branchLog).getD []

/-- The log of a branch. -/
def branchLogFor (inst : Instance W Φ κ β) (item : EmulateItem) : List LogEntry :=
  let log := inst.parentLog item.parentBranchId
  log ++ [⟨log.length, item.decisionPointId, item.actionId, item.rngId⟩]

/-- The phase's id of the parent. -/
def parentInternalId (inst : Instance W Φ κ β) (parentId : PyStr) : Option String :=
  if parentId = root then none else (inst.bookkeeping.get? parentId).bind Book.internalId

section Batch

variable (env : RunEnv W Φ κ β)

/-- The work of one item. The hypothesis gets its index here. -/
def prepareItem (admitted : Admitted κ β) : Op W Φ κ β (PreparedCombat κ β) := do
  let item := admitted.item
  let workItem ← onPhase (Phase.buildWorkItem env.phases admitted.context admitted.chosen
    (item.parentBranchId, item.decisionPointId, item.rngId))
  let inst ← Act.get
  pure { item
         workItem
         parentInternalId := inst.parentInternalId item.parentBranchId
         branchLog := inst.branchLogFor item
         history := inst.parentHistory item.parentBranchId }

/-- One branch gets its public record. -/
def registerOne (prepared : PreparedCombat κ β) (internalId : String) : Op W Φ κ β Unit := do
  let inst ← Act.get
  let branchIds ← Act.ofExcept (inst.branchIds.register prepared.item.branchId)
  Act.modify fun inst => { inst with
    branchIds
    bookkeeping := inst.bookkeeping.set prepared.item.branchId
      { parentPublicId := prepared.item.parentBranchId
        branchLog := prepared.branchLog
        history := prepared.history
        rngId := prepared.item.rngId
        internalId := some internalId } }

/-- `zip(prepared, internal_ids, strict=True)` comes to the end of one of them. -/
def lengthMismatch (longer : Bool) : PyError :=
  .raised "ValueError" ("zip() argument 2 is " ++ (if longer then "longer" else "shorter") ++
    " than argument 1")

/-- All branches get their public records. -/
def registerAll : List (PreparedCombat κ β) → List String → Op W Φ κ β Unit
  | [], [] => pure ()
  | prepared :: rest, internalId :: internalIds => do
      registerOne prepared internalId
      registerAll rest internalIds
  | prepared, _ => Act.raise (lengthMismatch prepared.isEmpty)

/-- `_faulted_branch_result`. -/
def faultedBranchResult (item : EmulateItem) (error faultKind : String) : Fields :=
  [("status", .str "faulted"), ("branch_id", .str item.branchId),
    ("parent_branch_id", .str item.parentBranchId), ("rng_id", .int item.rngId),
    ("error", .str (.text (if error = "" then "branch execution faulted" else error))),
    ("fault_kind", .str (.text (if faultKind = "" then Api.faultEmulatorError else faultKind)))]

/-- The members that tell where a branch comes from. -/
def originFields (item : EmulateItem) : Fields :=
  [("parent_branch_id", .str item.parentBranchId), ("rng_id", .int item.rngId)]

/-- What a result comes to for its branch. -/
def settleResult (results : List (String × Combat.BranchResult κ β))
    (prepared : PreparedCombat κ β) (internalId : String) : Op W Φ κ β (PyStr × Json) := do
  let item := prepared.item
  match Dict.lookupL internalId results with
  | none => Act.raise (.raised "RuntimeError"
      ("CombatPhase.poll() returned no result for Branch " ++ internalId))
  | some result =>
      if result.status ≠ .success then
        Act.modify (modifyBook item.branchId fun book => { book with status := .faulted })
        pure (item.branchId, .obj (faultedBranchResult item result.diagnostics.message
          (result.diagnostics.faultKind.getD Api.faultEmulatorError)))
      else
        let nextView ← Act.ofExcept (phaseViewFromResult env.phases result)
        Act.modify fun inst =>
          { inst with decisionPoints := inst.decisionPoints.issue item.branchId }
        match nextView with
        | none => do
            Act.modify (modifyBook item.branchId fun book => { book with terminal := true })
            let outcome ← Act.ofExcept (requireTerminalOutcome
              (result.terminalResult.map Combat.BranchTerminalResult.outcome)
              ("combat branch " ++ pyRepr item.branchId) validCombatTerminalOutcomes)
            Act.modify (modifyBook item.branchId fun book => { book with outcome := some outcome })
            let inst ← Act.get
            let masked ← Act.ofExcept (combatTerminalDto outcome)
            pure (item.branchId, .obj (completedReply (originFields item ++
              decisionFields inst item.branchId prepared.branchLog masked)))
        | some view => do
            Act.modify (modifyBook item.branchId fun book =>
              { book with view := some (.combat view) })
            let fields ← phaseDecisionResponseFields env item.branchId view
            pure (item.branchId, .obj (completedReply (fields ++ originFields item)))

/-- The results, one after another. -/
def settleAll (results : List (String × Combat.BranchResult κ β)) :
    List (PreparedCombat κ β) → List String → Op W Φ κ β (List (PyStr × Json))
  | [], [] => pure []
  | prepared :: rest, internalId :: internalIds => do
      let reply ← settleResult env results prepared internalId
      let replies ← settleAll results rest internalIds
      pure (reply :: replies)
  | prepared, _ => Act.raise (lengthMismatch prepared.isEmpty)

/-- One public record is removed. -/
def unregister (branchId : PyStr) (inst : Instance W Φ κ β) : Instance W Φ κ β :=
  { inst with
    bookkeeping := inst.bookkeeping.erase branchId
    decisionPoints := inst.decisionPoints.clear branchId
    branchIds := inst.branchIds.rollbackRegistration branchId }

/-- The clean-up of a batch. No id of the batch was known before it, so those that
    are known have been registered by it. -/
def unwind (branchIds : List PyStr) (marker : Nat) (internalIds : List String) :
    Op W Φ κ β Unit := do
  Act.onlyIf (internalIds ≠ [])
    (Act.ensuring (onPhase (Phase.onBranches (env.phases.branches.cancel internalIds)))
      (onPhase (Phase.onBranches (env.phases.branches.release internalIds))))
  let inst ← Act.get
  let registered := branchIds.filter inst.branchIds.isKnown
  Act.modify fun inst => registered.foldl (fun inst branchId => unregister branchId inst) inst
  onPhase (Phase.restoreRngHypotheses marker)
  Act.modify fun inst => { inst with
    combatBranchReservations := inst.combatBranchReservations \ branchIds.toFinset }

/-- The work of the items, and the branches that the phase makes for it. -/
def submitBatch (admitted : List (Admitted κ β)) :
    Op W Φ κ β (List (PreparedCombat κ β) × List String) := do
  let prepared ← Act.collect (prepareItem env) admitted
  let internalIds ← onPhase (Phase.onBranches (env.phases.branches.submitMany
    (prepared.map fun entry => (entry.workItem, entry.parentInternalId))))
  pure (prepared, internalIds)

/-- The public records, the poll and the replies. -/
def runBatch (simulationOptions : Option Fields) (prepared : List (PreparedCombat κ β))
    (internalIds : List String) : Op W Φ κ β Fields := do
  registerAll prepared internalIds
  let timeout ← Act.ofExcept (pollTimeout simulationOptions)
  let results ← onPhase (Phase.onBranches (env.phases.branches.poll timeout internalIds))
  let replies ← settleAll env results prepared internalIds
  pure [("status", .str "completed"), ("branch_results", .obj replies)]

/-- What a batch does once it is admitted. -/
def executeBatch (simulationOptions : Option Fields) (phase : Phase Φ κ β)
    (admitted : List (Admitted κ β)) : Op W Φ κ β Fields := do
  let branchIds := admitted.map fun entry => entry.item.branchId
  let marker := phase.rngTable.snapshot
  Act.modify fun inst => { inst with
    combatBranchReservations := inst.combatBranchReservations ∪ branchIds.toFinset }
  let (prepared, internalIds) ← (submitBatch env admitted).onError fun _ =>
    unwind env branchIds marker []
  (runBatch env simulationOptions prepared internalIds).onError fun _ =>
    unwind env branchIds marker internalIds

/-- The size of a batch. -/
def checkBatchSize (items : List EmulateItem) : Op W Φ κ β Unit := do
  Act.raiseIf (items = []) (.rejected (reject "emulate_actions.items must be a non-empty list"))
  Act.raiseIf (env.maxBranches < items.length)
    (.rejected (reject ("emulate_actions batch size " ++ toString items.length ++
      " exceeds max batch size " ++ toString env.maxBranches ++
      "; chunk the frontier into multiple requests")))

/-- `_emulate_combat_phase_actions`. -/
def emulateCombatPhaseActions (items : List EmulateItem) (simulationOptions : Option Fields) :
    Op W Φ κ β Fields := do
  ensureMutable
  Act.ofExcept (validateStopCondition simulationOptions)
  checkBatchSize env items
  let inst ← Act.get
  match inst.combatPhase with
  | none => Act.raise combatBranchingUnavailable
  | some phase => do
      let admitted ← Act.ofExcept (admitItems env inst phase [] items)
      Act.raiseIf (env.maxBranches < inst.combatBranchReservations.card + admitted.length)
        (.rejected (reject ("submitting " ++ toString admitted.length ++
          " Branch(es) would exceed max_branches=" ++ toString env.maxBranches ++ " (currently " ++
          toString inst.combatBranchReservations.card ++ " reserved)")))
      executeBatch env simulationOptions phase admitted

end Batch

end Instance

end WholeRun

end STS2RL
