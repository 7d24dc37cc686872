import STS2RL.WholeRun.EventBatch

/-!
# A Worker of the Run

A worker plays a branch from the map on. It loads the map, enters the room, steps
through the actions that led to the decision, and then plays the action of the
branch with the reward actions that leave no choice. The random streams of a
hypothesis are set once, before the action that the plan names.

The worker has an emulator of its own. Nothing is asked of the emulator here but
that it is deterministic: what it reads changes nothing, and a map that is loaded
is the same whatever game came before. All else follows from the calls that
change the game, in their order, and these can be read off the item
(`operations`). So two items are compared by comparing two lists.

Items of an event have no semantic key, no relic and no lease, and so the parts of
the worker for these are left out.

## Main definitions

* `WorkerEmulator`, `WorkerEmulator.Deterministic`: The emulator of a worker.
* `WorkerEmulator.Answers`: What is read of a game is answered.
* `Worker.bootstrapReach`, `Worker.execute`: What a worker does with an item.
* `Operation`, `operations`, `Worker.perform`: The calls that change the game.
* `Worker.play`: These calls, and the rewards.

## Theorems

* `bootstrapReach_eq`: The way to the decision is a list of calls.
* `play_of_execute`: A worker that reports a step has played its item.
* `execute_of_play`: A worker whose calls are all answered reports a step.
* `agrees_play`: An item is played alike in every worker.
* `operations_child`: The calls for a child are those for its parent, and more.
-/

namespace STS2RL

namespace WholeRun

open Api (PyError Fields)

variable {V α : Type}

/-- The calls into the emulator of a worker. -/
structure WorkerEmulator (V : Type) extends Emulator V where
  loadState : String → Act PyError V Unit
  setEventRngState : EventRngState → Act PyError V Unit
  getRunState : Act PyError V Fields

/-- A call that changes nothing. -/
def Reads (call : Act PyError V α) : Prop := ∀ world, (call world).2 = world

/-- What is read changes nothing, and a map that is loaded replaces the game. -/
structure WorkerEmulator.Deterministic (worker : WorkerEmulator V) : Prop where
  getObservation : Reads worker.getObservation
  getLegalActions : Reads worker.getLegalActions
  getMapRooms : Reads worker.getMapRooms
  getRoomContext : Reads worker.getRoomContext
  getEventRngState : Reads worker.getEventRngState
  getRunState : Reads worker.getRunState
  loadState : ∀ snapshot world world',
    worker.loadState snapshot world = worker.loadState snapshot world'

/-- The calls that read a game all answer, and show the given board. -/
structure WorkerEmulator.Answers (worker : WorkerEmulator V) (world : V)
    (observation : Observation) : Prop where
  getObservation : (worker.getObservation world).1 = .ok observation
  getLegalActions : ∃ legalActions, (worker.getLegalActions world).1 = .ok legalActions
  getMapRooms : observation.boundary = .mapSelect →
    ∃ rooms, (worker.getMapRooms world).1 = .ok rooms
  getEventRngState : observation.boundary = .eventChoice →
    ∃ state, (worker.getEventRngState world).1 = .ok state
  getRoomContext : ∃ roomContext, (worker.getRoomContext world).1 = .ok roomContext
  getRunState : ∃ runState, (worker.getRunState world).1 = .ok runState

/-- A call that changes the game. -/
inductive Operation where
  | loadState (snapshot : Option String)
  | chooseRoom (roomId : Option Int)
  | step (actionId : Int)
  | setEventRngState (overrides : EventRngState)
  deriving DecidableEq

/-- `ChoiceReachResult`. -/
structure ChoiceReachResult where
  observation : Observation
  legalActions : List RunAction
  roomContext : RoomContext
  runState : Fields
  eventRngState : Option EventRngState

namespace Worker

variable (worker : WorkerEmulator V)

/-!
### Executing an item

The worker of the source: a world is set up, the prefix is replayed, the choice is
resolved, and the board that is reached is reported.
-/

section Execution

/-- `load_state`. -/
def loadState : Option String → Act PyError (Session V) Unit
  | none => Act.raise (.raised "ArgumentNullException" "snapshot")
  | some snapshot => do
      Session.mutatingGame
      Session.inWorld (worker.loadState snapshot)

/-- `choose_room`, of a room that has to be there. -/
def chooseRoom : Option Int → Act PyError (Session V) Unit
  | none => Act.raise (.raised "AssertionError" "")
  | some roomId => Session.chooseRoom worker.toEmulator roomId

/-- `_apply_event_rng_override`. -/
def applyEventRngOverride (overrides : EventRngState) : Act PyError (Session V) Unit := do
  Session.mutatingGame
  Session.inWorld (worker.setEventRngState overrides)

/-- The streams are set before the action with the index of the plan. -/
def overrideBefore (plan : Option EventRngReplayPlan) (index : Nat) :
    Act PyError (Session V) Unit :=
  match plan with
  | none => pure ()
  | some plan =>
      Act.onlyIf (plan.applyBeforeActionIndex = index)
        (applyEventRngOverride worker plan.overrideState)

/-- The loop of `_bootstrap_reach`, from an index on. -/
def replayPrefix (plan : Option EventRngReplayPlan) : Nat → List Int → Act PyError (Session V) Unit
  | _, [] => pure ()
  | index, actionId :: rest => do
      overrideBefore worker plan index
      Session.step worker.toEmulator actionId
      replayPrefix plan (index + 1) rest

/-- `_bootstrap_reach`. -/
def bootstrapReach (item : EventWorkItem) : Act PyError (Session V) Unit := do
  loadState worker item.mapSnapshot
  if item.choiceType = "map" then pure ()
  else do
    chooseRoom worker item.roomId
    replayPrefix worker item.eventRngPlan 0 item.actionPrefix

/-- The rooms of the map, or the legal actions elsewhere. -/
def actionsNow (atMap : Bool) : Act PyError (Session V) (List RunAction) :=
  if atMap then do
    let rooms ← Session.inWorld worker.getMapRooms
    pure (rooms.map MapRoom.asLegalAction)
  else Session.inWorld worker.getLegalActions

/-- The random streams of an event. -/
def streamsNow (boundary : RunBoundary) : Act PyError (Session V) (Option EventRngState) :=
  if boundary = .eventChoice then do
    let state ← Session.inWorld worker.getEventRngState
    pure (some state)
  else pure none

/-- `_reach_result_from_session`. -/
def reachResult (choiceType : String) : Act PyError (Session V) ChoiceReachResult := do
  let observation ← Session.inWorld worker.getObservation
  let legalActions ← actionsNow worker (choiceType = "map")
  let eventRngState ← streamsNow worker observation.boundary
  let roomContext ← Session.inWorld worker.getRoomContext
  let runState ← Session.inWorld worker.getRunState
  pure { observation, legalActions, roomContext, runState, eventRngState }

/-- The error of a plan for an event where the room shows none. -/
def notAnEvent (boundary : RunBoundary) : PyError :=
  .raised "RuntimeError" ("event_rng_plan given but boundary is '" ++ boundary.text ++
    "', not 'event_choice'")

/-- The streams are set after the last action of the prefix, if the plan says so. -/
def overrideAtReach (item : EventWorkItem) (boundary : RunBoundary) :
    Act PyError (Session V) Unit :=
  match item.eventRngPlan with
  | none => pure ()
  | some plan =>
      Act.onlyIf (plan.applyBeforeActionIndex = item.actionPrefix.length) (do
        Act.raiseIf (boundary ≠ .eventChoice) (notAnEvent boundary)
        applyEventRngOverride worker plan.overrideState)

/-- The action of the branch. -/
def resolve (item : EventWorkItem) : Act PyError (Session V) Unit :=
  if item.choiceType = "map" then do
    Session.chooseRoom worker.toEmulator item.resolveActionId
    let _ ← Session.inWorld worker.getObservation
    let _ ← Session.inWorld worker.getRoomContext
    pure ()
  else Session.step worker.toEmulator item.resolveActionId

/-- What there is to report of the board. -/
def settledStep (autoActionIds : List Int) : Act PyError (Session V) ChoiceStepResult := do
  let settledObservation ← Session.inWorld worker.getObservation
  let settledLegalActions ← actionsNow worker (settledObservation.boundary = .mapSelect)
  let settledRoomContext ← Session.inWorld worker.getRoomContext
  let _ ← Session.inWorld worker.getRunState
  pure { settledObservation, settledLegalActions, settledRoomContext, autoActionIds }

/-- The result of a replay that left its recorded path. -/
def replayMismatch : ChoiceResult where
  success := false
  step := none
  message := none
  faultKind := some "replay_mismatch"

/-- The result of a replay that raised. -/
def workerException (error : PyError) : ChoiceResult where
  success := false
  step := none
  message := some (Instance.errorText error)
  faultKind := some "worker_exception"

/-- `execute`, of an item that is bootstrapped. -/
def execute (item : EventWorkItem) : Act PyError (Session V) ChoiceResult :=
  Act.catching (do
    bootstrapReach worker item
    let reach ← reachResult worker item.choiceType
    if reach.observation.boundary ≠ item.targetBoundary then pure replayMismatch
    else do
      overrideAtReach worker item reach.observation.boundary
      resolve worker item
      let autoActionIds ← drainTrivialRewardFrontier worker.toEmulator
      let step ← settledStep worker autoActionIds
      pure { success := true, step := some step, message := none, faultKind := none })
    fun error => pure (workerException error)

end Execution

/-!
### Calls to the emulator

What is left of an execution when everything but the calls is taken away.
-/

section Calls

/-- One call. -/
def perform : Operation → Act PyError (Session V) Unit
  | .loadState snapshot => loadState worker snapshot
  | .chooseRoom roomId => chooseRoom worker roomId
  | .step actionId => Session.step worker.toEmulator actionId
  | .setEventRngState overrides => applyEventRngOverride worker overrides

/-- Calls, one after another. -/
def performAll (calls : List Operation) : Act PyError (Session V) Unit :=
  Act.forEach (perform worker) calls

/-- The calls for an item, and the rewards that leave no choice. -/
def play (calls : List Operation) : Act PyError (Session V) (List Int) := do
  performAll worker calls
  drainTrivialRewardFrontier worker.toEmulator

end Calls

end Worker

/-!
### The operations of an item

What the item asks to be played, in order; the item of a child asks for what its parent's
asked for and for what the parent's action came to.
-/

section Operations

/-- The streams are set at the index of the plan. -/
def overrideOperations (plan : Option EventRngReplayPlan) (index : Nat) : List Operation :=
  match plan with
  | none => []
  | some plan =>
      if plan.applyBeforeActionIndex = index then [.setEventRngState plan.overrideState] else []

/-- The calls that replay a prefix. -/
def replayOperations (plan : Option EventRngReplayPlan) : Nat → List Int → List Operation
  | _, [] => []
  | index, actionId :: rest =>
      overrideOperations plan index ++ .step actionId :: replayOperations plan (index + 1) rest

/-- The calls on the way to the decision of an item. -/
def reachOperations (item : EventWorkItem) : List Operation :=
  .loadState item.mapSnapshot ::
    if item.choiceType = "map" then []
    else .chooseRoom item.roomId :: replayOperations item.eventRngPlan 0 item.actionPrefix

/-- The call for the action of an item. -/
def resolveOperation (item : EventWorkItem) : Operation :=
  if item.choiceType = "map" then .chooseRoom (some item.resolveActionId)
  else .step item.resolveActionId

/-- The calls for an item, up to the rewards. -/
def operations (item : EventWorkItem) : List Operation :=
  reachOperations item ++ overrideOperations item.eventRngPlan item.actionPrefix.length ++
    [resolveOperation item]

theorem replayOperations_append (plan : Option EventRngReplayPlan) (index : Nat)
    (actionIds rest : List Int) :
    replayOperations plan index (actionIds ++ rest) =
      replayOperations plan index actionIds ++
        replayOperations plan (index + actionIds.length) rest := by
  induction actionIds generalizing index with
  | nil => rfl
  | cons actionId actionIds ih =>
      have hindex : index + 1 + actionIds.length = index + (actionIds.length + 1) := by omega
      rw [List.cons_append, replayOperations, replayOperations, ih, List.length_cons, hindex]
      simp only [List.append_assoc, List.cons_append]

/-- Where the plan has no index, actions are only stepped through. -/
theorem replayOperations_eq_map {plan : EventRngReplayPlan} {index : Nat} (actionIds : List Int)
    (h : plan.applyBeforeActionIndex < index ∨
      index + actionIds.length ≤ plan.applyBeforeActionIndex) :
    replayOperations (some plan) index actionIds = actionIds.map .step := by
  induction actionIds generalizing index with
  | nil => rfl
  | cons actionId actionIds ih =>
      rw [List.length_cons] at h
      have hne : plan.applyBeforeActionIndex ≠ index := by omega
      have hrest : plan.applyBeforeActionIndex < index + 1 ∨
          index + 1 + actionIds.length ≤ plan.applyBeforeActionIndex := by omega
      rw [replayOperations, ih hrest, overrideOperations, if_neg hne]
      rfl

/-- The child of an item that was played: it is reached by the item, its action and
    its rewards, and it inherits the plan. -/
structure Extends (parent : EventWorkItem) (autoActionIds : List Int) (child : EventWorkItem) :
    Prop where
  choiceTypes : parent.choiceType ≠ "map" ∧ child.choiceType ≠ "map"
  mapSnapshot : child.mapSnapshot = parent.mapSnapshot
  roomId : child.roomId = parent.roomId
  actionPrefix : child.actionPrefix =
    parent.actionPrefix ++ [parent.resolveActionId] ++ autoActionIds
  plan : ∃ plan, parent.eventRngPlan = some plan ∧ child.eventRngPlan = some plan ∧
    plan.applyBeforeActionIndex ≤ parent.actionPrefix.length

theorem Extends.length_actionPrefix {parent child : EventWorkItem} {autoActionIds : List Int}
    (h : Extends parent autoActionIds child) :
    child.actionPrefix.length = parent.actionPrefix.length + 1 + autoActionIds.length := by
  rw [h.actionPrefix, List.length_append, List.length_append]
  rfl

/-- The streams are set on the way to the decision of a child, and so not again. -/
theorem overrideOperations_child {parent child : EventWorkItem} {autoActionIds : List Int}
    (h : Extends parent autoActionIds child) :
    overrideOperations child.eventRngPlan child.actionPrefix.length = [] := by
  rcases h.plan with ⟨plan, -, hchild, hindex⟩
  have hlength := h.length_actionPrefix
  rw [hchild, overrideOperations, if_neg (by omega)]

/-- The way to the decision of a child is what was played for its parent. -/
theorem reachOperations_child {parent child : EventWorkItem} {autoActionIds : List Int}
    (h : Extends parent autoActionIds child) :
    reachOperations child = operations parent ++ autoActionIds.map .step := by
  rcases h.plan with ⟨plan, hparent, hchild, hindex⟩
  have hautos : replayOperations (some plan) (parent.actionPrefix.length + 1) autoActionIds =
      autoActionIds.map .step := replayOperations_eq_map _ (.inl (by omega))
  have hreplay : replayOperations (some plan) 0 child.actionPrefix =
      replayOperations (some plan) 0 parent.actionPrefix ++
        (overrideOperations (some plan) parent.actionPrefix.length ++
          .step parent.resolveActionId :: autoActionIds.map .step) := by
    rw [h.actionPrefix, List.append_assoc, replayOperations_append, Nat.zero_add,
      List.singleton_append, replayOperations, hautos]
  unfold operations resolveOperation reachOperations
  rw [hchild, hparent, hreplay, h.mapSnapshot, h.roomId, if_neg h.choiceTypes.1,
    if_neg h.choiceTypes.2, if_neg h.choiceTypes.1]
  simp only [List.append_assoc, List.cons_append, List.nil_append]

/-- The calls for a child are those for its parent, the rewards, and the new action. -/
theorem operations_child {parent child : EventWorkItem} {autoActionIds : List Int}
    (h : Extends parent autoActionIds child) :
    operations child = operations parent ++ autoActionIds.map .step ++
      [.step child.resolveActionId] := by
  have hresolve : resolveOperation child = .step child.resolveActionId :=
    if_neg h.choiceTypes.2
  rw [operations, reachOperations_child h, overrideOperations_child h, hresolve, List.append_nil]

end Operations

namespace Worker

variable (worker : WorkerEmulator V)

/-!
### Replaying the prefix

The worker's own functions play the operations of the prefix.
-/

section Replay

theorem performAll_cons (call : Operation) (calls : List Operation) (session : Session V) :
    performAll worker (call :: calls) session =
      (perform worker call >>= fun _ => performAll worker calls) session := rfl

theorem performAll_singleton (call : Operation) (session : Session V) :
    performAll worker [call] session = perform worker call session := by
  rw [performAll_cons, Act.bind_apply]
  rcases perform worker call session with ⟨_ | _, after⟩ <;> rfl

theorem performAll_append (calls rest : List Operation) (session : Session V) :
    performAll worker (calls ++ rest) session =
      (performAll worker calls >>= fun _ => performAll worker rest) session :=
  Act.forEach_append _ calls rest session

theorem overrideBefore_eq (plan : Option EventRngReplayPlan) (index : Nat)
    (session : Session V) :
    overrideBefore worker plan index session =
      performAll worker (overrideOperations plan index) session := by
  cases plan with
  | none => rfl
  | some plan =>
      unfold overrideBefore overrideOperations Act.onlyIf
      by_cases hindex : plan.applyBeforeActionIndex = index
      · simp only [if_pos hindex]
        exact (performAll_singleton worker (.setEventRngState plan.overrideState) session).symm
      · simp only [if_neg hindex]
        rfl

theorem replayPrefix_eq (plan : Option EventRngReplayPlan) (index : Nat) (actionIds : List Int)
    (session : Session V) :
    replayPrefix worker plan index actionIds session =
      performAll worker (replayOperations plan index actionIds) session := by
  induction actionIds generalizing index session with
  | nil => rfl
  | cons actionId actionIds ih =>
      rw [replayOperations, performAll_append]
      exact Act.bind_congr (overrideBefore_eq worker plan index session) fun _ _ =>
        Act.bind_congr rfl fun _ stepped => ih (index + 1) stepped

/-- The way to the decision of an item is a list of calls. -/
theorem bootstrapReach_eq (item : EventWorkItem) (session : Session V) :
    bootstrapReach worker item session = performAll worker (reachOperations item) session := by
  unfold reachOperations
  refine Act.bind_congr rfl fun _ loaded => ?_
  by_cases hmap : item.choiceType = "map"
  · rw [if_pos hmap, if_pos hmap]
    rfl
  · rw [if_neg hmap, if_neg hmap]
    exact Act.bind_congr rfl fun _ entered => replayPrefix_eq worker _ 0 _ entered

end Replay

/-!
### An execution plays its operations

Every call of an execution is one of its operations, and the choices that resolve
themselves are played in between.
-/

section Execution

variable {worker} (hdet : worker.Deterministic)

/-- A program that only reads leaves the session as it is. -/
theorem keeps_of_reads {call : Act PyError V α} (hreads : Reads call) (session : Session V) :
    Act.Keeps (fun s => s = session) (Session.inWorld call) := by
  refine .of_after fun s hs => ?_
  change ({ s with world := (call s.world).2 } : Session V) = session
  rw [hreads]
  exact hs

include hdet

theorem keeps_takesNow (session : Session V) :
    Act.Keeps (fun s => s = session) (takesNow worker.toEmulator) :=
  (keeps_of_reads hdet.getObservation session).bind fun _ => .ite (fun _ => .pure _) fun _ =>
    (keeps_of_reads hdet.getLegalActions session).bind fun _ => .pure _

/-- The rounds that were played are the actions they report. -/
theorem performAll_of_drainRounds (rounds : Nat) (consumed result : List Int)
    (session after : Session V)
    (h : drainRounds worker.toEmulator rounds consumed session = (.ok result, after)) :
    ∃ autoActionIds, result = consumed ++ autoActionIds ∧
      performAll worker (autoActionIds.map .step) session = (.ok (), after) := by
  induction rounds generalizing consumed session with
  -- No round left: it ended because nothing can be taken any more.
  | zero =>
      rcases Act.of_bind_ok h with ⟨takes, read, htakes, hrest⟩
      have hread : read = session := Act.Keeps.at_ok (keeps_takesNow hdet session) rfl htakes
      rcases Act.of_bind_ok hrest with ⟨_, passed, hraise, hpure⟩
      unfold Act.raiseIf at hraise
      split at hraise
      · cases hraise
      · cases hraise
        cases hpure
        exact ⟨[], (List.append_nil _).symm, by rw [hread]; rfl⟩
  | succ rounds ih =>
      -- What can be taken is read without changing the session.
      rcases Act.of_bind_ok h with ⟨takes, read, htakes, hrest⟩
      have hread : read = session := Act.Keeps.at_ok (keeps_takesNow hdet session) rfl htakes
      match takes, hrest with
      | [], hrest =>
          cases hrest
          exact ⟨[], (List.append_nil _).symm, by rw [hread]; rfl⟩
      -- Exactly one take: it is performed, and the rounds that are left go on from there.
      | [take], hrest =>
          rcases Act.of_bind_ok hrest with ⟨_, stepped, hstep, hrounds⟩
          rcases ih _ _ hrounds with ⟨rest, hresult, hperformed⟩
          refine ⟨take.actionId :: rest, by rw [hresult, List.append_assoc]; rfl, ?_⟩
          rw [← hread, List.map_cons, performAll_cons]
          exact (Act.bind_of_ok _ hstep).trans hperformed
      | _ :: _ :: _, hrest => cases hrest

/-- The reward actions that were played are those that are reported. -/
theorem performAll_of_drain {autoActionIds : List Int} {session after : Session V}
    (h : drainTrivialRewardFrontier worker.toEmulator session = (.ok autoActionIds, after)) :
    performAll worker (autoActionIds.map .step) session = (.ok (), after) := by
  rcases performAll_of_drainRounds hdet _ _ _ _ _ h with ⟨_, rfl, hperformed⟩
  exact hperformed

theorem keeps_actionsNow (atMap : Bool) (session : Session V) :
    Act.Keeps (fun s => s = session) (actionsNow worker atMap) :=
  .ite (fun _ => (keeps_of_reads hdet.getMapRooms session).bind fun _ => .pure _) fun _ =>
    keeps_of_reads hdet.getLegalActions session

theorem keeps_reachResult (choiceType : String) (session : Session V) :
    Act.Keeps (fun s => s = session) (reachResult worker choiceType) :=
  (keeps_of_reads hdet.getObservation session).bind fun _ =>
    (keeps_actionsNow hdet _ session).bind fun _ =>
    Act.Keeps.bind (.ite (fun _ => (keeps_of_reads hdet.getEventRngState session).bind fun _ =>
      .pure _) fun _ => .pure _) fun _ =>
    (keeps_of_reads hdet.getRoomContext session).bind fun _ =>
    (keeps_of_reads hdet.getRunState session).bind fun _ => .pure _

theorem keeps_settledStep (autoActionIds : List Int) (session : Session V) :
    Act.Keeps (fun s => s = session) (settledStep worker autoActionIds) :=
  (keeps_of_reads hdet.getObservation session).bind fun _ =>
    (keeps_actionsNow hdet _ session).bind fun _ =>
    (keeps_of_reads hdet.getRoomContext session).bind fun _ =>
    (keeps_of_reads hdet.getRunState session).bind fun _ => .pure _

omit hdet in
/-- An override at the reach is the operation that puts it there. -/
theorem performAll_of_overrideAtReach {item : EventWorkItem} {boundary : RunBoundary}
    {session after : Session V}
    (h : overrideAtReach worker item boundary session = (.ok (), after)) :
    performAll worker (overrideOperations item.eventRngPlan item.actionPrefix.length) session =
      (.ok (), after) := by
  rw [← overrideBefore_eq]
  unfold overrideAtReach at h
  unfold overrideBefore
  cases hplan : item.eventRngPlan with
  | none =>
      rw [hplan] at h
      exact h
  | some plan =>
      rw [hplan] at h
      unfold Act.onlyIf at h ⊢
      by_cases hindex : plan.applyBeforeActionIndex = item.actionPrefix.length
      · simp only [if_pos hindex] at h ⊢
        rcases Act.of_bind_ok h with ⟨_, passed, hraise, hoverride⟩
        unfold Act.raiseIf at hraise
        split at hraise
        · cases hraise
        · cases hraise
          exact hoverride
      · simp only [if_neg hindex] at h ⊢
        exact h

/-- Resolving the item is playing its action. -/
theorem perform_of_resolve {item : EventWorkItem} {session after : Session V}
    (h : resolve worker item session = (.ok (), after)) :
    perform worker (resolveOperation item) session = (.ok (), after) := by
  unfold resolve at h
  unfold resolveOperation
  by_cases hmap : item.choiceType = "map"
  · rw [if_pos hmap] at h ⊢
    rcases Act.of_bind_ok h with ⟨_, entered, henter, hreads⟩
    have hread : after = entered := by
      refine Act.Keeps.at_ok (I := fun s => s = entered) ?_ rfl hreads
      exact (keeps_of_reads hdet.getObservation entered).bind fun _ =>
        (keeps_of_reads hdet.getRoomContext entered).bind fun _ => .pure _
    rw [hread]
    exact henter
  · rw [if_neg hmap] at h ⊢
    exact h

omit hdet in
theorem settledStep_eq_ok {autoActionIds : List Int} {session after : Session V}
    {step : ChoiceStepResult} (h : settledStep worker autoActionIds session = (.ok step, after)) :
    step.autoActionIds = autoActionIds ∧
      (worker.getObservation session.world).1 = .ok step.settledObservation := by
  rcases Act.of_bind_ok h with ⟨observation, _, hobservation, h₁⟩
  rcases Act.of_bind_ok h₁ with ⟨_, _, -, h₂⟩
  rcases Act.of_bind_ok h₂ with ⟨_, _, -, h₃⟩
  rcases Act.of_bind_ok h₃ with ⟨_, _, -, h₄⟩
  cases h₄
  exact ⟨rfl, congrArg Prod.fst hobservation⟩

omit hdet in
/-- What is read is answered, and the session stays as it is. -/
theorem inWorld_of_reads {call : Act PyError V α} (hreads : Reads call) {session : Session V}
    {a : α} (h : (call session.world).1 = .ok a) :
    Session.inWorld call session = (.ok a, session) := by
  have hends : Session.inWorld call session =
      ((call session.world).1, { session with world := (call session.world).2 }) := rfl
  rw [hends, h, hreads]

/-- The board on the way to the decision is reported. -/
theorem reachResult_of_answers {choiceType : String} (hchoice : choiceType ≠ "map")
    {session : Session V} {observation : Observation}
    (h : worker.Answers session.world observation) :
    ∃ reach, reachResult worker choiceType session = (.ok reach, session) ∧
      reach.observation = observation := by
  rcases h.getLegalActions with ⟨legalActions, hactions⟩
  rcases h.getRoomContext with ⟨roomContext, hroom⟩
  rcases h.getRunState with ⟨runState, hstate⟩
  have hstreams : ∃ streams, streamsNow worker observation.boundary session =
      (.ok streams, session) := by
    unfold streamsNow
    by_cases hevent : observation.boundary = .eventChoice
    · rcases h.getEventRngState hevent with ⟨state, hstate⟩
      rw [if_pos hevent, Act.bind_of_ok _ (inWorld_of_reads hdet.getEventRngState hstate)]
      exact ⟨_, rfl⟩
    · rw [if_neg hevent]
      exact ⟨_, rfl⟩
  rcases hstreams with ⟨streams, hstreams⟩
  refine ⟨⟨observation, legalActions, roomContext, runState, streams⟩, ?_, rfl⟩
  unfold reachResult
  rw [Act.bind_of_ok _ (inWorld_of_reads hdet.getObservation h.getObservation)]
  have hnow : actionsNow worker (choiceType = "map") session = (.ok legalActions, session) := by
    unfold actionsNow
    rw [if_neg (by simpa using hchoice)]
    exact inWorld_of_reads hdet.getLegalActions hactions
  rw [Act.bind_of_ok _ hnow, Act.bind_of_ok _ hstreams,
    Act.bind_of_ok _ (inWorld_of_reads hdet.getRoomContext hroom),
    Act.bind_of_ok _ (inWorld_of_reads hdet.getRunState hstate)]
  rfl

/-- The board that the action came to is reported, with the rewards. -/
theorem settledStep_of_answers (autoActionIds : List Int) {session : Session V}
    {observation : Observation} (h : worker.Answers session.world observation) :
    ∃ step, settledStep worker autoActionIds session = (.ok step, session) ∧
      step.settledObservation = observation ∧ step.autoActionIds = autoActionIds := by
  rcases h.getRoomContext with ⟨roomContext, hroom⟩
  rcases h.getRunState with ⟨runState, hstate⟩
  have hnow : ∃ legalActions, actionsNow worker (observation.boundary = .mapSelect) session =
      (.ok legalActions, session) := by
    unfold actionsNow
    by_cases hmap : observation.boundary = .mapSelect
    · rcases h.getMapRooms hmap with ⟨rooms, hrooms⟩
      rw [if_pos (by simpa using hmap), Act.bind_of_ok _ (inWorld_of_reads hdet.getMapRooms hrooms)]
      exact ⟨_, rfl⟩
    · rcases h.getLegalActions with ⟨legalActions, hactions⟩
      rw [if_neg (by simpa using hmap)]
      exact ⟨_, inWorld_of_reads hdet.getLegalActions hactions⟩
  rcases hnow with ⟨legalActions, hnow⟩
  refine ⟨⟨observation, legalActions, roomContext, autoActionIds⟩, ?_, rfl, rfl⟩
  unfold settledStep
  rw [Act.bind_of_ok _ (inWorld_of_reads hdet.getObservation h.getObservation),
    Act.bind_of_ok _ hnow, Act.bind_of_ok _ (inWorld_of_reads hdet.getRoomContext hroom),
    Act.bind_of_ok _ (inWorld_of_reads hdet.getRunState hstate)]
  rfl

omit hdet in
/-- At an event the override is the call that the plan asks for. -/
theorem overrideAtReach_eq (item : EventWorkItem) (session : Session V) :
    overrideAtReach worker item .eventChoice session =
      performAll worker (overrideOperations item.eventRngPlan item.actionPrefix.length)
        session := by
  rw [← overrideBefore_eq]
  unfold overrideAtReach overrideBefore
  cases item.eventRngPlan with
  | none => rfl
  | some plan =>
      unfold Act.onlyIf
      by_cases hindex : plan.applyBeforeActionIndex = item.actionPrefix.length
      · simp only [if_pos hindex]
        rfl
      · simp only [if_neg hindex]

/-- A worker whose calls are all answered, and which comes to the event of its item on the
    way, reports a step, and leaves the game as the calls for its item do. -/
theorem execute_of_play {item : EventWorkItem} (hchoice : item.choiceType ≠ "map")
    (htarget : item.targetBoundary = .eventChoice) {session reached after : Session V}
    {observation settled : Observation} {autoActionIds : List Int}
    (hreach : performAll worker (reachOperations item) session = (.ok (), reached))
    (hread : worker.Answers reached.world observation)
    (hevent : observation.boundary = .eventChoice)
    (hplay : play worker (operations item) session = (.ok autoActionIds, after))
    (hsettled : worker.Answers after.world settled) :
    ∃ step, execute worker item session =
        (.ok { success := true, step := some step, message := none, faultKind := none }, after) ∧
      step.autoActionIds = autoActionIds ∧ step.settledObservation = settled := by
  rcases Act.of_bind_ok hplay with ⟨_, resolved, hcalls, hdrain⟩
  -- What is left of the calls starts at the decision.
  unfold operations at hcalls
  rw [List.append_assoc, performAll_append, Act.bind_of_ok _ hreach, performAll_append] at hcalls
  rcases Act.of_bind_ok hcalls with ⟨_, overridden, hoverride, hresolve⟩
  rw [performAll_singleton] at hresolve
  rcases reachResult_of_answers hdet hchoice hread with ⟨reach, hreported, hsame⟩
  rcases settledStep_of_answers hdet autoActionIds hsettled with ⟨step, hstep, hboard, hautos⟩
  refine ⟨step, ?_, hautos, hboard⟩
  have hbody : (do
      bootstrapReach worker item
      let reach ← reachResult worker item.choiceType
      if reach.observation.boundary ≠ item.targetBoundary then pure replayMismatch
      else do
        overrideAtReach worker item reach.observation.boundary
        resolve worker item
        let autoActionIds ← drainTrivialRewardFrontier worker.toEmulator
        let step ← settledStep worker autoActionIds
        pure { success := true, step := some step, message := none, faultKind := none }) session =
      (.ok { success := true, step := some step, message := none, faultKind := none }, after) := by
    rw [Act.bind_of_ok _ ((bootstrapReach_eq worker item session).trans hreach),
      Act.bind_of_ok _ hreported, hsame, hevent, htarget, if_neg (fun h => h rfl),
      Act.bind_of_ok _ ((overrideAtReach_eq item reached).trans hoverride)]
    have hresolved : resolve worker item overridden = (.ok (), resolved) := by
      unfold resolveOperation at hresolve
      unfold resolve
      rw [if_neg hchoice] at hresolve ⊢
      exact hresolve
    rw [Act.bind_of_ok _ hresolved, Act.bind_of_ok _ hdrain, Act.bind_of_ok _ hstep]
    rfl
  unfold execute Act.catching
  rw [hbody]

/-- A worker that reports a step has made the calls for its item, and played the rewards.
    The board it reports is the one it came to. -/
theorem play_of_execute {item : EventWorkItem} {session after : Session V}
    {result : ChoiceResult} (h : execute worker item session = (.ok result, after))
    (hsuccess : result.success = true) :
    ∃ step, result.step = some step ∧
      play worker (operations item) session = (.ok step.autoActionIds, after) ∧
      (worker.getObservation after.world).1 = .ok step.settledObservation := by
  unfold execute Act.catching at h
  split at h
  · rename_i _ _ hbody
    cases h
    rcases Act.of_bind_ok hbody with ⟨_, reached, hreach, hreached⟩
    rcases Act.of_bind_ok hreached with ⟨reach, read, hread, hchecked⟩
    have hsame : read = reached := Act.Keeps.at_ok (keeps_reachResult hdet _ reached) rfl hread
    split at hchecked
    · cases hchecked
      cases hsuccess
    · rcases Act.of_bind_ok hchecked with ⟨_, overridden, hoverride, hresolving⟩
      rcases Act.of_bind_ok hresolving with ⟨_, resolved, hresolve, hdraining⟩
      rcases Act.of_bind_ok hdraining with ⟨autoActionIds, drained, hdrain, hsettling⟩
      rcases Act.of_bind_ok hsettling with ⟨step, settled, hsettled, hreport⟩
      cases hreport
      rcases settledStep_eq_ok hsettled with ⟨hautos, hboard⟩
      have hend : after = drained :=
        Act.Keeps.at_ok (keeps_settledStep hdet _ drained) rfl hsettled
      -- The calls are those of the three parts.
      have hcalls : performAll worker (operations item) session = (.ok (), resolved) := by
        rw [bootstrapReach_eq] at hreach
        rw [hsame] at hoverride
        unfold operations
        rw [List.append_assoc, performAll_append, Act.bind_of_ok _ hreach, performAll_append,
          Act.bind_of_ok _ (performAll_of_overrideAtReach hoverride), performAll_singleton]
        exact perform_of_resolve hdet hresolve
      rw [← hend, ← hautos] at hdrain
      rw [← hend] at hboard
      exact ⟨step, rfl, (Act.bind_of_ok _ hcalls).trans hdrain, hboard⟩
  · cases h
    cases hsuccess

end Execution

/-!
### Sessions

Nothing but the game of a session matters to what is played in it.
-/

section Sessions

/-- Nobody but the session itself holds the game. -/
def Usable (session : Session V) : Prop :=
  match session.lease with
  | none => session.access.state = .run ∨ session.access.state = .combat
  | some lease => session.access.Current lease

/-- Two sessions with the same game. -/
structure SameGame (session other : Session V) : Prop where
  world : session.world = other.world
  usable : Usable session
  usable' : Usable other

/-- A session that can be used mutates its game and can be used after. -/
theorem mutatingGame_of_usable {session : Session V} (h : Usable session) :
    ∃ after, Session.mutatingGame session = (.ok (), after) ∧ after.world = session.world ∧
      Usable after := by
  unfold Usable at h
  unfold Session.mutatingGame
  rw [Act.get_bind]
  cases hlease : session.lease with
  | some lease =>
      rw [hlease] at h
      refine ⟨session, ?_, rfl, ?_⟩
      · dsimp only
        rw [Act.ofExcept_apply, GameAccess.validateCurrent_eq_ok.mpr h]
      · unfold Usable
        rw [hlease]
        exact h
  | none =>
      rw [hlease] at h
      have hclaim : ∃ lease access, session.access.claim runHolder .run = .ok (lease, access) := by
        unfold GameAccess.claim
        rcases h with h | h <;> simp [h]
      rcases hclaim with ⟨lease, access, hclaim⟩
      have hcurrent := (GameAccess.current_of_claim (.inl rfl) hclaim).1
      refine ⟨{ session with access, lease := some lease }, ?_, rfl, hcurrent⟩
      dsimp only
      rw [Act.bind_apply, Act.ofExcept_apply, hclaim]
      dsimp only
      rw [Act.modify_bind, Act.ofExcept_apply, GameAccess.validateCurrent_eq_ok.mpr hcurrent]

/-- A change of the game is made alike in two sessions that may differ in the game. -/
theorem sameGame_of_mutating {call : Act PyError V Unit} {session other : Session V}
    (h : Usable session) (h' : Usable other) (hcall : call session.world = call other.world) :
    ((do Session.mutatingGame; Session.inWorld call) session).1 =
        ((do Session.mutatingGame; Session.inWorld call) other).1 ∧
      SameGame ((do Session.mutatingGame; Session.inWorld call) session).2
        ((do Session.mutatingGame; Session.inWorld call) other).2 := by
  rcases mutatingGame_of_usable h with ⟨claimed, hclaimed, hworld, husable⟩
  rcases mutatingGame_of_usable h' with ⟨claimed', hclaimed', hworld', husable'⟩
  rw [Act.bind_of_ok _ hclaimed, Act.bind_of_ok _ hclaimed']
  unfold Session.inWorld Act.zoom
  rw [hworld, hworld', hcall]
  exact ⟨rfl, rfl, husable, husable'⟩

theorem agrees_mutating (call : Act PyError V Unit) :
    Act.Agrees SameGame (do Session.mutatingGame; Session.inWorld call)
      (do Session.mutatingGame; Session.inWorld call) := fun _ _ h =>
  sameGame_of_mutating h.usable h.usable' (congrArg call h.world)

theorem agrees_inWorld (call : Act PyError V α) :
    Act.Agrees SameGame (Session.inWorld call) (Session.inWorld call) := by
  intro session other h
  unfold Session.inWorld Act.zoom
  rw [h.world]
  exact ⟨rfl, rfl, h.usable, h.usable'⟩

theorem agrees_perform (call : Operation) :
    Act.Agrees SameGame (perform worker call) (perform worker call) := by
  cases call with
  | loadState snapshot =>
      cases snapshot with
      | none => exact .raise _
      | some snapshot => exact agrees_mutating _
  | chooseRoom roomId =>
      cases roomId with
      | none => exact .raise _
      | some roomId => exact agrees_mutating _
  | step actionId => exact agrees_mutating _
  | setEventRngState overrides => exact agrees_mutating _

theorem agrees_performAll (calls : List Operation) :
    Act.Agrees SameGame (performAll worker calls) (performAll worker calls) :=
  .forEach (agrees_perform worker) calls

/-- Draining what resolves itself comes to the same in the same game. -/
theorem agrees_drain :
    Act.Agrees SameGame (drainTrivialRewardFrontier worker.toEmulator)
      (drainTrivialRewardFrontier worker.toEmulator) := by
  have htakes : Act.Agrees SameGame (takesNow worker.toEmulator) (takesNow worker.toEmulator) := by
    refine (agrees_inWorld _).bind fun observation => ?_
    split
    · exact .pure _
    · exact (agrees_inWorld _).bind fun _ => .pure _
  have hrounds : ∀ rounds consumed, Act.Agrees SameGame
      (drainRounds worker.toEmulator rounds consumed)
      (drainRounds worker.toEmulator rounds consumed) := by
    intro rounds
    induction rounds with
    | zero => exact fun consumed => htakes.bind fun _ =>
        (Act.Agrees.raiseIf _ _).bind fun _ => .pure _
    | succ rounds ih =>
        refine fun consumed => htakes.bind fun takes => ?_
        split
        · exact .pure _
        · exact (agrees_mutating _).bind fun _ => ih _
        · exact .raise _
  exact hrounds _ _

theorem agrees_play (calls : List Operation) :
    Act.Agrees SameGame (play worker calls) (play worker calls) :=
  (agrees_performAll worker calls).bind fun _ => agrees_drain worker

/-- Calls that begin with a map come to the same in every worker, whatever its game. -/
theorem performAll_restarts {worker : WorkerEmulator V} (hdet : worker.Deterministic)
    (snapshot : String) (calls : List Operation) {session other : Session V}
    (h : Usable session) (h' : Usable other) :
    (performAll worker (.loadState (some snapshot) :: calls) session).1 =
        (performAll worker (.loadState (some snapshot) :: calls) other).1 ∧
      SameGame (performAll worker (.loadState (some snapshot) :: calls) session).2
        (performAll worker (.loadState (some snapshot) :: calls) other).2 := by
  have hload := sameGame_of_mutating h h' (hdet.loadState snapshot session.world other.world)
  exact Act.Agrees.bind_at hload fun _ => agrees_performAll worker calls

end Sessions

/-!
### Chains

A child's execution starts where its parent's ended, so a chain of executions plays what
one would.
-/

section Chains

variable {worker} (hdet : worker.Deterministic) {parent child : EventWorkItem}
  {autoActionIds : List Int}

include hdet

/-- What was played, with its rewards, is a list of calls. -/
theorem performAll_of_play {calls : List Operation} {session after : Session V}
    (h : play worker calls session = (.ok autoActionIds, after)) :
    performAll worker (calls ++ autoActionIds.map .step) session = (.ok (), after) := by
  rcases Act.of_bind_ok h with ⟨_, performed, hperformed, hdrained⟩
  rw [performAll_append, Act.bind_of_ok _ hperformed]
  exact performAll_of_drain hdet hdrained

/-- An item that was played somewhere is played alike everywhere, and so is what
    begins with its calls. -/
theorem play_restarts {before after : Session V}
    (hplayed : play worker (operations parent) before = (.ok autoActionIds, after))
    (rest : List Operation) {session other : Session V} (h : Usable session) (h' : Usable other) :
    (play worker (operations parent ++ rest) session).1 =
        (play worker (operations parent ++ rest) other).1 ∧
      SameGame (play worker (operations parent ++ rest) session).2
        (play worker (operations parent ++ rest) other).2 := by
  -- The map could be loaded, so there is one.
  have hcalls : ∃ snapshot calls, operations parent = .loadState (some snapshot) :: calls := by
    rcases hsnapshot : parent.mapSnapshot with _ | snapshot
    · rcases Act.of_bind_ok hplayed with ⟨_, _, hcalls, -⟩
      unfold operations reachOperations at hcalls
      rw [hsnapshot] at hcalls
      cases hcalls
    · unfold operations reachOperations
      rw [hsnapshot]
      exact ⟨snapshot, _, rfl⟩
  rcases hcalls with ⟨snapshot, calls, hcalls⟩
  rw [hcalls, List.cons_append]
  exact Act.Agrees.bind_at (performAll_restarts hdet snapshot _ h h') fun _ => agrees_drain worker

/-- A child is played as its parent is, and then its action. -/
theorem play_child (h : Extends parent autoActionIds child) {before after : Session V}
    (hbefore : Usable before)
    (hplayed : play worker (operations parent) before = (.ok autoActionIds, after))
    {session other : Session V} (hsession : Usable session) (hother : Usable other) :
    ∃ reached, play worker (operations parent) other = (.ok autoActionIds, reached) ∧
      (play worker (operations child) session).1 =
        (play worker [.step child.resolveActionId] reached).1 ∧
      SameGame (play worker (operations child) session).2
        (play worker [.step child.resolveActionId] reached).2 := by
  -- In the other session the parent comes to the same.
  have hparent : (play worker (operations parent) other).1 = .ok autoActionIds := by
    have hagrees := (play_restarts hdet hplayed [] hbefore hother).1
    rw [List.append_nil, hplayed] at hagrees
    exact hagrees.symm
  rcases hreached : play worker (operations parent) other with ⟨outcome, reached⟩
  rw [hreached] at hparent
  dsimp only at hparent
  rw [hparent] at hreached
  refine ⟨reached, by rw [hparent], ?_⟩
  -- The child goes on from there.
  have hchild : play worker (operations child) other =
      play worker [.step child.resolveActionId] reached := by
    refine Act.bind_congr_at ?_
    rw [operations_child h, performAll_append,
      Act.bind_of_ok _ (performAll_of_play hdet hreached)]
  have hagrees := play_restarts hdet hplayed
    (autoActionIds.map .step ++ [.step child.resolveActionId]) hsession hother
  rw [← List.append_assoc, ← operations_child h, hchild] at hagrees
  exact hagrees

/-- What is played after a parent is the way to the decision of its child. -/
theorem performAll_reach_child (h : Extends parent autoActionIds child) {session after : Session V}
    (hplayed : play worker (operations parent) session = (.ok autoActionIds, after)) :
    performAll worker (reachOperations child) session = (.ok (), after) := by
  rw [reachOperations_child h]
  exact performAll_of_play hdet hplayed

/-- A worker comes to the board of the parent, makes the action of the child, and reports
    it, when every call is answered. -/
theorem execute_child (h : Extends parent autoActionIds child)
    (htarget : child.targetBoundary = .eventChoice) {reported observation settled : Observation}
    {before played session other reached after : Session V} {autoActionIds' : List Int}
    (hbefore : Usable before)
    (hplayed : play worker (operations parent) before = (.ok autoActionIds, played))
    (hreported : (worker.getObservation played.world).1 = .ok reported)
    (hevent : reported.boundary = .eventChoice) (hsession : Usable session) (hother : Usable other)
    (hreached : play worker (operations parent) other = (.ok autoActionIds, reached))
    (hread : worker.Answers reached.world observation)
    (hplay : play worker [.step child.resolveActionId] reached = (.ok autoActionIds', after))
    (hsettled : worker.Answers after.world settled) :
    ∃ step final, execute worker child session =
        (.ok { success := true, step := some step, message := none, faultKind := none }, final) ∧
      step.autoActionIds = autoActionIds' ∧ step.settledObservation = settled ∧
      SameGame final after := by
  -- The parent comes to the same in all three sessions.
  rcases play_child hdet h hbefore hplayed hsession hsession with ⟨here, hhere, -, -⟩
  have hsameWorld : played.world = here.world ∧ reached.world = here.world := by
    have hfirst := (play_restarts hdet hplayed [] hbefore hsession).2.world
    have hsecond := (play_restarts hdet hplayed [] hother hsession).2.world
    rw [List.append_nil] at hfirst hsecond
    rw [hplayed, hhere] at hfirst
    rw [hreached, hhere] at hsecond
    exact ⟨hfirst, hsecond⟩
  have hboard : observation.boundary = .eventChoice := by
    have hobservation := hread.getObservation
    rw [hsameWorld.2, ← hsameWorld.1, hreported] at hobservation
    cases hobservation
    exact hevent
  rcases play_child hdet h hbefore hplayed hsession hother with ⟨there, hthere, hchild', hsame'⟩
  rw [hreached] at hthere
  cases hthere
  rcases hend : play worker (operations child) session with ⟨outcome, final⟩
  rw [hend, hplay] at hchild' hsame'
  dsimp only at hchild' hsame'
  rw [hchild'] at hend
  rcases execute_of_play hdet h.choiceTypes.2 htarget (performAll_reach_child hdet h hhere)
    (hsameWorld.2 ▸ hread) hboard hend (hsame'.world ▸ hsettled) with
    ⟨step, hexecute, hautos, hsettledBoard⟩
  exact ⟨step, final, hexecute, hautos, hsettledBoard, hsame'⟩

end Chains

end Worker

end WholeRun

end STS2RL
