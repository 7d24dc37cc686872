import STS2RL.Combat.DecisionContext
import STS2RL.Combat.EnemyMaxHp
import STS2RL.Core.Act
import STS2RL.Core.Dict
import STS2RL.Core.Run
import STS2RL.WholeRun.GameAccess

/-!
# The Live Session

The session that plays the committed actions of a combat. It does not set the game up
for every action: it plays on the game where it stands, and looks first whether that is
where it left it. If anybody else has used the game in between, the session rebuilds the
state the action was chosen in and plays there.

The game may fault in an action. It may have been changed halfway then, so nothing of it
is read and no action is played any more until a combat is set up in it.

The game is outside the repository: it is a state and what its calls do to it, whatever
that is. Every call the session makes is noted down with what it came to, and the
promises of the session are read off the notes: what an action that was sent to the game
came right after.

## Main definitions

* `SessionEnv`: The game's calls, and how a scenario is built.
* `BattleEmulator.wrap`, `BattleEmulator.settle`: The state that is handed out.
* `LiveSession`: The session, with the calls it has made.
* `step`, `startCombat`, `restoreSnapshot`, `resumeFrom`: Its methods.
* `perform`: One call of the session, or a use of the game by others.
* `Open`, `StandsAt`: What the calls made so far tell of the game.
* `Rightful`: When a call may be made.
* `Admitted`: When an action is sent to the game.

## Theorems

* `keeps_step`, `perform_keeps`: Every call that is made may be made.
* `played_in_place`: The same of every run.
* `step_of_cleared`, `step_of_not_cleared`: What a step sends to the game.
* `answers_the_last_state`: The same in every run, with the state that was handed out last.
-/

namespace STS2RL

namespace Combat

namespace Live

open WholeRun (GameAccess GameLease LeaseState)
open Api (PyError)

/-- What is read of an entry of `state["enemies"]`. -/
structure EnemyRow where
  index : Option Int
  id : Option String
  isAlive : Bool := true
  hp : Option Int
  maxHp : Option Int
  stateId : Option String
  deriving DecidableEq, Repr

/-- `engine_state`. The rest of it is only handed on. -/
structure EngineState (β : Type) where
  enemies : List EnemyRow
  hp : Option Int
  turnNumber : Option (Option Int)
  pendingChoice : Option PendingChoice
  rest : β
  deriving DecidableEq, Repr

/-- The maxima at the start of the combat, by the enemy's index. -/
abbrev EnemyMaxHps := Dict (Option Int) (Option Int)

/-- `GameObservation`. -/
structure GameObservation (β : Type) where
  state : EngineState β
  isTerminal : Bool
  outcome : String
  combatSessionId : Option String
  stepIndex : Int
  turn : Option Int
  deriving DecidableEq, Repr

/-- What the game answers to a new scenario. -/
structure ResetResult (β : Type) where
  observation : GameObservation β
  legalActions : List LegalAction
  deriving DecidableEq, Repr

/-- What a transition came to. -/
structure TransitionOutcome (β : Type) where
  kind : String
  finalObservation : GameObservation β
  deriving DecidableEq, Repr

/-- What the game answers to an action. -/
structure StepResult (β : Type) where
  observation : GameObservation β
  legalActions : List LegalAction
  transition : Option (TransitionOutcome β)
  deriving DecidableEq, Repr

/-- What is kept of a combat that has ended. -/
structure CombatCompletion (β : Type) where
  liveObservationState : EngineState β
  liveObservationIsTerminal : Bool
  liveObservationOutcome : String
  transitionKind : String
  deriving DecidableEq, Repr

/-- A state that was handed out. -/
structure BattleState (β : Type) where
  engineState : EngineState β
  isTerminal : Bool
  outcome : String
  turn : Int
  enemyMaxHps : EnemyMaxHps
  shuffleRngSeed : Option Int
  cachedLegalActions : Option (List LegalAction)
  decisionFrame : Option DecisionFrame
  combatCompletion : Option (CombatCompletion β)

/-- An exception of the game. -/
inductive ClrException where
  | quiescentBoundaryViolation (message : String)
  | actionFaulted (message : String)
  | faultedCombatSession (message : String)
  | snapshotRestoreRejected (message : String)
  | snapshotRestoreFailed (message : String)
  | other (error : PyError)
  deriving DecidableEq, Repr

/-- What of an `ActionFaultContext` does not come out of the message. -/
structure ActionFaultContext where
  frame : Option DecisionFrame
  action : LegalAction
  targetIndex : Option Int
  targetEnemyIndex : Option Int
  rawMessage : String
  deriving DecidableEq, Repr

/-- The errors of a session. -/
inductive SessionError where
  | quiescentBoundaryViolation (message : String)
  | actionExecution (context : ActionFaultContext)
  | faultedCombatSession (combatSessionId : Option String)
  | decisionFrameMismatch (submitted current : Option DecisionFrame)
  | snapshotRestoreMissingMove (missing : List (Option Int × Option String))
  | snapshotRestoreRejected (message : String)
  | snapshotRestoreFailed (message : String)
  | clr (exception : ClrException)
  | python (error : PyError)
  deriving DecidableEq, Repr

/-- A call to the game, with what it came to. Whether the session had the lease, and
    the state that an action was chosen in, are ghosts. -/
inductive GameCall (ς κ β : Type) where
  | getObservation (outcome : Except ClrException (GameObservation β))
  | getLegalActions
  | step (held : Bool) (chosenAt : BattleState β) (action : LegalAction) (actionId : Int)
      (outcome : Except ClrException (StepResult β))
  | reset (held : Bool) (scenario : ς) (outcome : Except ClrException (ResetResult β))
  | restore (held : Bool) (snapshot : κ) (outcome : Except ClrException (ResetResult β))
  | captureSnapshot
  | resolve

/-- The game's calls, and how a scenario is built. A continuation is resolved by a
    callback, which is given the game. -/
structure SessionEnv (γ ς κ π β : Type) where
  getObservation : Act ClrException γ (GameObservation β)
  getLegalActions : Act ClrException γ (List LegalAction)
  step : Int → Act ClrException γ (StepResult β)
  resetFromScenario : ς → Act ClrException γ (ResetResult β)
  restoreSnapshot : κ → Act ClrException γ (ResetResult β)
  captureSnapshotJson : Act ClrException γ String
  parseSnapshot : String → Except PyError κ
  buildScenarioFromSpec : π → Except PyError ς
  buildScenarioFromState : EngineState β → Option Int → Except PyError ς
  defaultResolver : BattleState β → List LegalAction → Act ClrException γ LegalAction
  useLegalActionCache : Bool
  wholeRunMode : Bool

/-- `LiveCombatSession`. -/
structure LiveSession (γ ς κ β : Type) where
  game : γ
  access : GameAccess
  leaseHolder : Nat
  lease : Option GameLease := none
  currentFrame : Option DecisionFrame := none
  lastStepResynchronized : Bool := false
  resynchronizeCount : Nat := 0
  stepCount : Nat := 0
  sessionFaulted : Bool := false
  lastFaultContext : Option ActionFaultContext := none
  /-- The calls it has made, the last one first (ghost). -/
  calls : List (GameCall ς κ β) := []

/-- `__init__`. -/
def LiveSession.new {γ ς κ β : Type} (game : γ) (access : GameAccess) (leaseHolder : Nat) :
    LiveSession γ ς κ β :=
  { game, access, leaseHolder }

variable {γ ς κ π β : Type}

/-!
### The state that is handed out

An observation of the game becomes a state: a terminal one is made to look terminal, the
maxima of the enemies are put back to those of the start of the combat, and what was
performed last is settled on. The functions of the source are pure here; only the two that
ask the game again are methods.
-/

section Observations

/-- `state_has_living_enemies`. -/
def EnemyRow.living (enemy : EnemyRow) : Bool := enemy.isAlive && 0 < enemy.hp.getD 0

/-- `coerce_terminal_observation`. -/
def coerceTerminalObservation (state : EngineState β) (isTerminal : Bool) (outcome : String) :
    Bool × String :=
  let normalized := if outcome = "" then "in_progress" else outcome
  if isTerminal then (true, normalized)
  else if state.enemies.any EnemyRow.living then (false, normalized)
  else if 0 < state.hp.getD 0 then (true, "victory")
  else (true, "defeat")

/-- `is_action_continuation_pending_choice`. -/
def isActionContinuation (state : EngineState β) : Bool :=
  match state.pendingChoice with
  | some pending => isActionContinuationPendingChoice pending
  | none => false

/-- `_enemies_missing_current_move`. -/
def enemiesMissingCurrentMove (state : EngineState β) : List (Option Int × Option String) :=
  (state.enemies.filter fun enemy => enemy.living && enemy.stateId == some "UNSET_MOVE").map
    fun enemy => (enemy.index, enemy.id)

/-- `{e["index"]: e["maxHp"] for e in state["enemies"]}`. -/
def recordMaxHps (state : EngineState β) : EnemyMaxHps :=
  state.enemies.foldl (fun maxHps enemy => maxHps.set enemy.index enemy.maxHp) Dict.empty

/-- The same of the enemies that have both. -/
def adoptMaxHps (state : EngineState β) : EnemyMaxHps :=
  (state.enemies.filter fun enemy => enemy.index.isSome && enemy.maxHp.isSome).foldl
    (fun maxHps enemy => maxHps.set enemy.index enemy.maxHp) Dict.empty

/-- An enemy's maximum is put back to the one at the start. -/
def EnemyRow.override (enemyMaxHps : EnemyMaxHps) (enemy : EnemyRow) : EnemyRow :=
  match (enemyMaxHps.get? enemy.index).join with
  | some trueMax => { enemy with maxHp := some trueMax }
  | none => enemy

/-- `BattleEmulator._wrap`. -/
def BattleEmulator.wrap (obs : GameObservation β) (turn : Int) (enemyMaxHps : EnemyMaxHps)
    (shuffleRngSeed : Option Int) (legalActions : Option (List LegalAction))
    (combatCompletion : Option (CombatCompletion β)) : BattleState β :=
  let state := { obs.state with enemies := obs.state.enemies.map (EnemyRow.override enemyMaxHps) }
  let (isTerminal, outcome) := coerceTerminalObservation state obs.isTerminal obs.outcome
  { engineState := state
    isTerminal
    outcome
    turn
    enemyMaxHps
    shuffleRngSeed
    cachedLegalActions := legalActions
    decisionFrame := some ⟨obs.combatSessionId, obs.stepIndex, none⟩
    combatCompletion }

/-- `int(getattr(obs, "Turn", 1) or 1)`. -/
def GameObservation.turnOrFirst (obs : GameObservation β) : Int :=
  match obs.turn with
  | some turn => if turn = 0 then 1 else turn
  | none => 1

variable (env : SessionEnv γ ς κ π β)

/-- The end of `step_live_action`: the state that an action led to. -/
def BattleEmulator.settle (chosenAt : BattleState β) (action : LegalAction)
    (result : StepResult β) : Except SessionError (BattleState β) :=
  let nextTurn := if action.actionType = "system" then chosenAt.turn + 1 else chosenAt.turn
  match result.transition with
  | some transition =>
      if transition.kind = "combat_completed" then
        if !env.wholeRunMode && !result.observation.isTerminal then
          .error (.python (.raised "AssertionError"
            ("StepResult.Transition.Kind == 'combat_completed' but " ++
              "StepResult.Observation.IsTerminal is False - legacy no-map mode's " ++
              "run_terminal-on-combat-conclusion contract no longer holds.")))
        else
          .ok (wrap transition.finalObservation nextTurn chosenAt.enemyMaxHps
            chosenAt.shuffleRngSeed (some result.legalActions)
            (some ⟨result.observation.state, result.observation.isTerminal,
              result.observation.outcome, transition.kind⟩))
      else
        .ok (wrap result.observation nextTurn chosenAt.enemyMaxHps chosenAt.shuffleRngSeed
          (some result.legalActions) none)
  | none =>
      .ok (wrap result.observation nextTurn chosenAt.enemyMaxHps chosenAt.shuffleRngSeed
        (some result.legalActions) none)

end Observations

/-!
### The maxima that are remembered

The module of the maxima models the same record with all the fields it reads. The two
models remember the same numbers, so a law of the one is a law of the other.
-/

section Remembered

/-- An entry of an observation is what is seen of one whose enemy is known. -/
structure EnemyRow.Shows (row : EnemyRow) (known : EnemyMaxHp.EnemyRow) : Prop where
  index : row.index = some (known.index : Int)
  isAlive : row.isAlive = true
  hp : row.hp = some known.hp
  maxHp : row.maxHp = known.maxHp.map (·.amount)

/-- The same maxima are remembered, without their enemies. -/
def Remembers (maxHps : EnemyMaxHps) (known : EnemyMaxHp.EnemyMaxHps) : Prop :=
  ∀ i : Nat, maxHps.get? (some (i : Int)) = (known.get? i).map (Option.map (·.amount))

theorem Remembers.set {maxHps : EnemyMaxHps} {known : EnemyMaxHp.EnemyMaxHps}
    (h : Remembers maxHps known) {row : EnemyRow} {enemy : EnemyMaxHp.EnemyRow}
    (hrow : row.Shows enemy) :
    Remembers (maxHps.set row.index row.maxHp) (known.set enemy.index enemy.maxHp) := by
  intro i
  rw [Dict.get?_set, Dict.get?_set, hrow.index, hrow.maxHp]
  by_cases hi : i = enemy.index
  · rw [if_pos (by rw [hi]), if_pos hi]
    rfl
  · rw [if_neg (by simpa using hi), if_neg hi, h i]

/-- An enemy whose maximum is put back is seen in both models as the same enemy. -/
theorem shows_override {row : EnemyRow} {enemy : EnemyMaxHp.EnemyRow} (hrow : row.Shows enemy)
    {maxHps : EnemyMaxHps} {known : EnemyMaxHp.EnemyMaxHps} (h : Remembers maxHps known) :
    (row.override maxHps).Shows (EnemyMaxHp.override known enemy) := by
  have hentry : (maxHps.get? row.index).join =
      (known.get? enemy.index).join.map (·.amount) := by
    rw [hrow.index, h enemy.index]
    rcases known.get? enemy.index with _ | _ | maxHp <;> rfl
  unfold EnemyRow.override EnemyMaxHp.override
  rw [hentry]
  rcases (known.get? enemy.index).join with _ | maxHp
  · exact hrow
  · exact ⟨hrow.index, hrow.isAlive, hrow.hp, rfl⟩

/-- The states that `EnemyMaxHp` hands out are seen as those the session does: the same
    entries and maxima, and the same verdict that the combat is over. -/
theorem wrap_shows {obs : GameObservation β} {known : EnemyMaxHp.Observation}
    (henemies : List.Forall₂ EnemyRow.Shows obs.state.enemies known.enemies)
    (hterminal : obs.isTerminal = known.isTerminal) {maxHps : EnemyMaxHps}
    {knownMaxHps : EnemyMaxHp.EnemyMaxHps} (h : Remembers maxHps knownMaxHps) (turn : Int)
    (shuffleRngSeed : Option Int) (legalActions : Option (List LegalAction))
    (completion : Option (CombatCompletion β)) :
    List.Forall₂ EnemyRow.Shows
      (BattleEmulator.wrap obs turn maxHps shuffleRngSeed legalActions
        completion).engineState.enemies (EnemyMaxHp.wrap known knownMaxHps).enemies ∧
    (BattleEmulator.wrap obs turn maxHps shuffleRngSeed legalActions completion).isTerminal =
      (EnemyMaxHp.wrap known knownMaxHps).isTerminal := by
  -- The rows are compared one by one, each with its maximum put back.
  have hrows : List.Forall₂ EnemyRow.Shows (obs.state.enemies.map (EnemyRow.override maxHps))
      (known.enemies.map (EnemyMaxHp.override knownMaxHps)) :=
    List.forall₂_map_left_iff.mpr (List.forall₂_map_right_iff.mpr
      (henemies.imp fun _ _ hrow => shows_override hrow h))
  -- Whether an enemy lives does not depend on the maximum.
  have hliving : ((obs.state.enemies.map (EnemyRow.override maxHps)).any EnemyRow.living) =
      EnemyMaxHp.stateHasLivingEnemies known.enemies := by
    have hsame : ∀ (row : EnemyRow) (enemy : EnemyMaxHp.EnemyRow), row.Shows enemy →
        (row.override maxHps).living = decide (0 < enemy.hp) := by
      intro row enemy hrow
      have hkept := shows_override hrow h
      unfold EnemyRow.living
      rw [hkept.isAlive, hkept.hp]
      unfold EnemyMaxHp.override
      split <;> rfl
    rw [List.any_map, EnemyMaxHp.stateHasLivingEnemies]
    generalize obs.state.enemies = rows at henemies
    generalize known.enemies = others at henemies
    induction henemies with
    | nil => rfl
    | cons hrow _ ih => rw [List.any_cons, List.any_cons, ih, Function.comp_apply, hsame _ _ hrow]
  refine ⟨hrows, ?_⟩
  unfold BattleEmulator.wrap EnemyMaxHp.wrap coerceTerminalObservation
  dsimp only
  rw [hliving, hterminal]
  -- Only where the game claims no end is it asked whether an enemy lives.
  cases known.isTerminal with
  | true => rfl
  | false =>
      cases EnemyMaxHp.stateHasLivingEnemies known.enemies with
      | true => rfl
      | false =>
          simp only [Bool.false_eq_true, if_false]
          split <;> rfl

/-- So is what a start remembers. -/
theorem remembers_recordMaxHps {state : EngineState β} {known : List EnemyMaxHp.EnemyRow}
    (henemies : List.Forall₂ EnemyRow.Shows state.enemies known) :
    Remembers (recordMaxHps state) (EnemyMaxHp.recordMaxHps known) := by
  unfold recordMaxHps EnemyMaxHp.recordMaxHps
  have hstart : Remembers Dict.empty Dict.empty := fun i => rfl
  generalize (Dict.empty : EnemyMaxHps) = maxHps at hstart ⊢
  generalize (Dict.empty : EnemyMaxHp.EnemyMaxHps) = knownMaxHps at hstart ⊢
  generalize state.enemies = rows at henemies
  induction henemies generalizing maxHps knownMaxHps with
  | nil => exact hstart
  | cons hrow _ ih => exact ih _ _ (hstart.set hrow)

end Remembered

/-- A program of the session. -/
abbrev Method (γ ς κ β α : Type) := Act SessionError (LiveSession γ ς κ β) α

/-- Whether the session's lease is the current one. -/
def LiveSession.holds (session : LiveSession γ ς κ β) : Bool :=
  match session.lease with
  | some lease => (session.access.validateCurrent lease).isOk
  | none => false

/-- A call to the game, which is noted down. -/
def ask {α : Type} (act : Act ClrException γ α)
    (note : Bool → Except ClrException α → GameCall ς κ β) : Method γ ς κ β α := fun session =>
  let (outcome, game) := act session.game
  (outcome.mapError .clr, { session with
    game
    calls := note session.holds outcome :: session.calls })

/-- A value of the session's own, or the exception it is. -/
def python {α : Type} (value : Except PyError α) : Method γ ς κ β α :=
  Act.ofExcept (value.mapError .python)

/-- `except QuiescentBoundaryViolationException: raise QuiescentBoundaryViolation`. -/
def quiescentRaised : SessionError → Method γ ς κ β Unit
  | .clr (.quiescentBoundaryViolation message) => Act.raise (.quiescentBoundaryViolation message)
  | _ => pure ()

/-!
### The methods

A method is a program over the session: it may fail, and what it changed before stays. A
call to the game is noted with the answer before anything is made of it.
-/

section Methods

variable (env : SessionEnv γ ς κ π β)

/-- `_mutating_game`. -/
def mutatingGame : Method γ ς κ β Unit := do
  let session ← Act.get
  let lease ← match session.lease with
    | some lease => pure lease
    | none => do
        let (lease, access) ← python (session.access.claim session.leaseHolder .combat)
        Act.modify fun session => { session with access, lease := some lease }
        pure lease
  let session ← Act.get
  python (session.access.validateCurrent lease)

/-- `_ensure_session_not_faulted`. -/
def ensureSessionNotFaulted : Method γ ς κ β Unit := do
  let session ← Act.get
  Act.raiseIf (session.sessionFaulted = true)
    (.faultedCombatSession (session.currentFrame.bind (·.combatSessionId)))

/-- `ResetFromScenario`. -/
def resetFromScenario (scenario : ς) : Method γ ς κ β (ResetResult β) :=
  ask (env.resetFromScenario scenario) fun held outcome => .reset held scenario outcome

/-- `GetLegalActions`. -/
def askLegalActions : Method γ ς κ β (List LegalAction) :=
  ask env.getLegalActions fun _ _ => .getLegalActions

/-- `GetObservation`. -/
def askObservation : Method γ ς κ β (GameObservation β) :=
  ask env.getObservation fun _ outcome => .getObservation outcome

/-- A state is handed out. -/
def handOut (state : BattleState β) : Method γ ς κ β (BattleState β) := do
  Act.modify fun session => { session with
    currentFrame := state.decisionFrame
    sessionFaulted := false }
  pure state

/-- `start_combat`. -/
def startCombat (scenarioSpec : π) : Method γ ς κ β (BattleState β) := do
  let scenario ← python (env.buildScenarioFromSpec scenarioSpec)
  mutatingGame
  let result ← (resetFromScenario env scenario).onError quiescentRaised
  handOut (BattleEmulator.wrap result.observation 1 (recordMaxHps result.observation.state) none
    (some result.legalActions) none)

/-- The `except` clauses of `restore_snapshot`. -/
def restoreRaised : SessionError → Method γ ς κ β Unit
  | .clr (.snapshotRestoreRejected message) => Act.raise (.snapshotRestoreRejected message)
  | .clr (.snapshotRestoreFailed message) => do
      Act.modify fun session => { session with sessionFaulted := true }
      Act.raise (.snapshotRestoreFailed message)
  | .clr (.quiescentBoundaryViolation message) => Act.raise (.quiescentBoundaryViolation message)
  | _ => pure ()

/-- `restore_snapshot`, with `_finish_restore`. -/
def restoreSnapshot (snapshot : κ) : Method γ ς κ β (BattleState β) := do
  mutatingGame
  let result ← (ask (env.restoreSnapshot snapshot) fun held outcome =>
    .restore held snapshot outcome).onError restoreRaised
  handOut (BattleEmulator.wrap result.observation result.observation.turnOrFirst
    (recordMaxHps result.observation.state) none (some result.legalActions) none)

/-- `resume_from`. -/
def resumeFrom (state : BattleState β) : Method γ ς κ β (BattleState β) := do
  mutatingGame
  let scenario ← python (env.buildScenarioFromState state.engineState state.shuffleRngSeed)
  let _ ← (resetFromScenario env scenario).onError quiescentRaised
  let legalActions ← askLegalActions env
  let obs ← askObservation env
  handOut (BattleEmulator.wrap obs state.turn state.enemyMaxHps state.shuffleRngSeed
    (some legalActions) none)

/-- `adopt_current_combat`. It leaves the session faulted if it was. -/
def adoptCurrentCombat : Method γ ς κ β (BattleState β) := do
  let obs ← askObservation env
  let legalActions ← askLegalActions env
  match obs.state.turnNumber with
  | none => Act.raise (.python (.raised "RuntimeError"
      "cannot adopt current combat: adopted state has no turnNumber"))
  | some none => Act.raise (.python (.raised "RuntimeError"
      "cannot adopt current combat: adopted state has a null turnNumber"))
  | some (some turn) => do
      let state := BattleEmulator.wrap obs turn (adoptMaxHps obs.state) none (some legalActions)
        none
      Act.modify fun session => { session with currentFrame := state.decisionFrame }
      pure state

/-- The `except` clause of the calls that only read. -/
def readRaised : SessionError → Method γ ς κ β Unit
  | .clr (.faultedCombatSession _) => Act.raise (.faultedCombatSession none)
  | _ => pure ()

/-- `get_observation`. -/
def getObservation : Method γ ς κ β (GameObservation β) := do
  ensureSessionNotFaulted
  (askObservation env).onError readRaised

/-- `get_legal_actions`. -/
def getLegalActions : Method γ ς κ β (List LegalAction) := do
  ensureSessionNotFaulted
  (askLegalActions env).onError readRaised

/-- `capture_snapshot`. -/
def captureSnapshot : Method γ ς κ β κ := do
  ensureSessionNotFaulted
  let json ← ((ask env.captureSnapshotJson fun _ _ => .captureSnapshot).onError
    quiescentRaised).onError readRaised
  python (env.parseSnapshot json)

/-- `_is_still_current`. -/
def isStillCurrent (frame : DecisionFrame) : Method γ ς κ β Bool := do
  let obs ← askObservation env
  pure (decide (obs.combatSessionId = frame.combatSessionId ∧ obs.stepIndex = frame.stepIndex))

/-- `_resynchronize`. -/
def resynchronize (state : BattleState β) : Method γ ς κ β Unit := do
  let scenario ← python (env.buildScenarioFromState state.engineState state.shuffleRngSeed)
  let _ ← (do mutatingGame; resetFromScenario env scenario : Method γ ς κ β _).onError
    quiescentRaised
  Act.modify fun session => { session with
    lastStepResynchronized := true
    resynchronizeCount := session.resynchronizeCount + 1
    sessionFaulted := false }

/-- `game.Step`. -/
def askStep (chosenAt : BattleState β) (action : LegalAction) (actionId : Int) :
    Method γ ς κ β (StepResult β) :=
  ask (env.step actionId) fun held outcome => .step held chosenAt action actionId outcome

/-- The `enemyIndex` values of the targets that are offered, as Python prints the list. -/
def offeredEnemyIndexes (offered : List LegalAction) : String :=
  "[" ++ ", ".intercalate (offered.map fun legal =>
    match legal.enemyIndex with
    | none => "None"
    | some enemy => toString enemy) ++ "]"

/-- Which of the targets that are offered is taken. -/
def chosenTarget (first : LegalAction) (rest : List LegalAction)
    (targetIndex targetEnemyIndex : Option Int) : Except PyError LegalAction :=
  match targetEnemyIndex with
  | some enemy =>
      match (first :: rest).find? fun legal => legal.enemyIndex = some enemy with
      | some target => .ok target
      | none => .error (.raised "ValueError" ("target_enemy_index=" ++ toString enemy ++
          " not among currently targetable enemies (offered enemyIndex values: " ++
          offeredEnemyIndexes (first :: rest) ++ ") - it may have already died"))
  | none =>
      let index := (max 0 (min (targetIndex.getD 0) rest.length)).toNat
      .ok ((first :: rest).getD index first)

/-- `step_live_action`. A target that is asked for is chosen by a second call. -/
def stepLiveAction (chosenAt : BattleState β) (action : LegalAction)
    (targetIndex targetEnemyIndex : Option Int) : Method γ ς κ β (BattleState β) := do
  let result ← askStep env chosenAt action action.actionId
  match result.legalActions with
  | first :: rest =>
      if first.actionType = "choice_target" then do
        let target ← python (chosenTarget first rest targetIndex targetEnemyIndex)
        let targeted ← askStep env chosenAt action target.actionId
        Act.ofExcept (BattleEmulator.settle env chosenAt action targeted)
      else Act.ofExcept (BattleEmulator.settle env chosenAt action result)
  | [] => Act.ofExcept (BattleEmulator.settle env chosenAt action result)

/-- The `except` clauses around an action that is played, with `_handle_action_fault`. -/
def actionRaised (action : LegalAction) (targetIndex targetEnemyIndex : Option Int) :
    SessionError → Method γ ς κ β Unit
  | .clr (.quiescentBoundaryViolation message) => Act.raise (.quiescentBoundaryViolation message)
  | .clr (.actionFaulted message) => do
      let session ← Act.get
      let context : ActionFaultContext :=
        ⟨session.currentFrame, action, targetIndex, targetEnemyIndex, message⟩
      Act.modify fun session => { session with
        sessionFaulted := true
        lastFaultContext := some context }
      Act.raise (.actionExecution context)
  | .clr (.faultedCombatSession _) => do
      Act.modify fun session => { session with sessionFaulted := true }
      Act.raise (.faultedCombatSession none)
  | _ => pure ()

/-- An action is played. -/
def playAction (chosenAt : BattleState β) (action : LegalAction)
    (targetIndex targetEnemyIndex : Option Int) : Method γ ς κ β (BattleState β) :=
  (stepLiveAction env chosenAt action targetIndex targetEnemyIndex).onError
    (actionRaised action targetIndex targetEnemyIndex)

/-- `enumerate_legal_actions`, with the state, in which the actions are remembered. -/
def enumerateLegalActions (state : BattleState β) :
    Method γ ς κ β (List LegalAction × BattleState β) :=
  if state.isTerminal then pure ([], state)
  else
    match state.cachedLegalActions with
    | some cached =>
        if env.useLegalActionCache && isActionContinuation state.engineState then
          pure (cached, state)
        else fetch
    | none => fetch
where
  fetch := do
    let scenario ← python (env.buildScenarioFromState state.engineState state.shuffleRngSeed)
    let _ ← resetFromScenario env scenario
    let legalActions ← askLegalActions env
    pure (legalActions, if env.useLegalActionCache then
      { state with cachedLegalActions := some legalActions } else state)

/-- A continuation is resolved by the callback. It is given the game, which it may change,
    and nothing of the session: it cannot claim or release the access. -/
abbrev Resolver (γ β : Type) := BattleState β → List LegalAction → Act ClrException γ LegalAction

/-- `MAX_CONTINUATION_STEPS`. -/
def maxContinuationSteps : Nat := 50

/-- The loop of `step`, with the steps that are left. -/
def resolveContinuation (resolver : Resolver γ β) (stopAtPending : Bool) :
    Nat → BattleState β → Method γ ς κ β (BattleState β)
  | left, state =>
      if !isActionContinuation state.engineState || stopAtPending then pure state
      else
        match left with
        | 0 => Act.raise (.python (.raised "RuntimeError"
            "ActionContinuation did not resolve within 50 continuation steps."))
        | left + 1 => do
            let (legalActions, state) ← enumerateLegalActions env state
            let action ← ask (resolver state legalActions) fun _ _ => .resolve
            let next ← playAction env state action none none
            resolveContinuation resolver stopAtPending left next

/-- `step`. -/
def step (state : BattleState β) (action : LegalAction) (targetIndex targetEnemyIndex : Option Int)
    (continuationResolver : Option (Resolver γ β)) (stopAtPending : Bool) :
    Method γ ς κ β (BattleState β) := do
  let session ← Act.get
  match session.currentFrame with
  | none => Act.raise (.python (.raised "RuntimeError"
      "start_combat()/resume_from() must be called before step()"))
  | some frame => do
      ensureSessionNotFaulted
      Act.raiseIf (state.decisionFrame ≠ some frame)
        (.decisionFrameMismatch state.decisionFrame (some frame))
      Act.raiseIf (action.actionType = "system" ∧
          enemiesMissingCurrentMove state.engineState ≠ [])
        (.snapshotRestoreMissingMove (enemiesMissingCurrentMove state.engineState))
      Act.modify fun session => { session with lastStepResynchronized := false }
      mutatingGame
      let stillCurrent ← isStillCurrent env frame
      Act.onlyIf (stillCurrent = false) (resynchronize env state)
      let next ← playAction env state action targetIndex targetEnemyIndex
      let settled ← resolveContinuation env (continuationResolver.getD env.defaultResolver)
        stopAtPending maxContinuationSteps next
      Act.modify fun session => { session with
        stepCount := session.stepCount + 1
        currentFrame := settled.decisionFrame }
      pure settled

/-- `accept_transferred_lease`. -/
def acceptTransferredLease (lease : GameLease) : Method γ ς κ β Unit := do
  let session ← Act.get
  Act.raiseIf (lease.state ≠ .combat ∨ lease.holder ≠ session.leaseHolder)
    (.python (WholeRun.accessError
      "LiveCombatSession received a lease for the wrong holder/state"))
  python (session.access.validateCurrent lease)
  Act.modify fun session => { session with lease := some lease }

/-- `begin_lease_transfer`. -/
def beginLeaseTransfer : Method γ ς κ β GameLease := do
  let session ← Act.get
  match session.lease with
  | none => Act.raise (.python (WholeRun.accessError
      "LiveCombatSession has no COMBAT lease to transfer"))
  | some lease => do
      let (transfer, access) ← python (session.access.begin lease)
      Act.modify fun session => { session with access, lease := none }
      pure transfer

/-- `close`. A lease that was superseded is left alone. -/
def close : Method γ ς κ β Unit := do
  let session ← Act.get
  Act.modify fun session => { session with lease := none }
  match session.lease with
  | none => pure ()
  | some lease =>
      match session.access.release lease with
      | .ok access => Act.modify fun session => { session with access }
      | .error _ => pure ()

end Methods

/-- A call of the session, or a use of the game by somebody else. -/
inductive Call (γ κ π β : Type) where
  | startCombat (scenarioSpec : π)
  | restoreSnapshot (snapshot : κ)
  | resumeFrom (state : BattleState β)
  | adoptCurrentCombat
  | getObservation
  | getLegalActions
  | captureSnapshot
  | step (state : BattleState β) (action : LegalAction) (targetIndex targetEnemyIndex : Option Int)
      (continuationResolver : Option (Resolver γ β)) (stopAtPending : Bool)
  | acceptTransferredLease (lease : GameLease)
  | beginLeaseTransfer
  | close
  | others (game : γ) (access : GameAccess)

/-- What is answered. -/
inductive Reply (κ β : Type) where
  | state (state : BattleState β)
  | observation (observation : GameObservation β)
  | legalActions (legalActions : List LegalAction)
  | snapshot (snapshot : κ)
  | lease (lease : GameLease)
  | done
  | error (error : SessionError)

/-- The outcome as a reply. -/
def answered {α : Type} (reply : α → Reply κ β) (method : Method γ ς κ β α)
    (session : LiveSession γ ς κ β) : LiveSession γ ς κ β × Reply κ β :=
  match method session with
  | (.ok value, session) => (session, reply value)
  | (.error error, session) => (session, .error error)

/-- One call. -/
def perform (env : SessionEnv γ ς κ π β) (session : LiveSession γ ς κ β) :
    Call γ κ π β → LiveSession γ ς κ β × Reply κ β
  | .startCombat spec => answered .state (startCombat env spec) session
  | .restoreSnapshot snapshot => answered .state (restoreSnapshot env snapshot) session
  | .resumeFrom state => answered .state (resumeFrom env state) session
  | .adoptCurrentCombat => answered .state (adoptCurrentCombat env) session
  | .getObservation => answered .observation (getObservation env) session
  | .getLegalActions => answered .legalActions (getLegalActions env) session
  | .captureSnapshot => answered .snapshot (captureSnapshot env) session
  | .step state action targetIndex targetEnemyIndex resolver stopAtPending =>
      answered .state (step env state action targetIndex targetEnemyIndex resolver stopAtPending)
        session
  | .acceptTransferredLease lease =>
      answered (fun _ => .done) (acceptTransferredLease lease) session
  | .beginLeaseTransfer => answered .lease beginLeaseTransfer session
  | .close => answered (fun _ => .done) close session
  | .others game access => ({ session with game, access }, .done)

/-!
### What the notes say

The calls are all that is known of the game. From them one can tell whether a combat is
set up in it, and whether it stands where the session left it; a call is rightful if its
condition holds at the moment it is made.
-/

section Notes

/-- An action that raises so leaves the game changed halfway. -/
def ClrException.actionFault : ClrException → Bool
  | actionFaulted _ => true
  | faultedCombatSession _ => true
  | _ => false

/-- A restore that raises so does. -/
def ClrException.restoreFault : ClrException → Bool
  | snapshotRestoreFailed _ => true
  | _ => false

/-- The answer leaves a fault behind. -/
def GameCall.faults : GameCall ς κ β → Bool
  | step _ _ _ _ (.error exception) => exception.actionFault
  | restore _ _ (.error exception) => exception.restoreFault
  | _ => false

/-- A combat was set up in the game. -/
def GameCall.setsUp : GameCall ς κ β → Bool
  | reset _ _ (.ok _) => true
  | restore _ _ (.ok _) => true
  | _ => false

/-- A combat was set up in the game since it last faulted. -/
def Open : List (GameCall ς κ β) → Prop
  | [] => True
  | call :: earlier => call.setsUp = true ∨ call.faults = false ∧ Open earlier

variable (env : SessionEnv γ ς κ π β)

/-- As far as the session can tell the game stands where the state was handed out: it was
    seen there, or rebuilt from the state, or the last action led there. -/
def StandsAt (state : BattleState β) : List (GameCall ς κ β) → Prop
  | .getObservation (.ok obs) :: _ => ∃ frame, state.decisionFrame = some frame ∧
      obs.combatSessionId = frame.combatSessionId ∧ obs.stepIndex = frame.stepIndex
  | .reset _ scenario (.ok _) :: _ =>
      env.buildScenarioFromState state.engineState state.shuffleRngSeed = .ok scenario
  | .step _ chosenAt action _ (.ok result) :: _ =>
      BattleEmulator.settle env chosenAt action result = .ok state
  | .getLegalActions :: earlier => StandsAt state earlier
  | .resolve :: earlier => StandsAt state earlier
  | _ => False

/-- The last call played the action, and the game asks for its target. -/
def AsksTarget (chosenAt : BattleState β) (action : LegalAction) (actionId : Int) :
    List (GameCall ς κ β) → Prop
  | .step _ chosenAt' action' _ (.ok result) :: _ =>
      chosenAt' = chosenAt ∧ action' = action ∧
        (∃ target ∈ result.legalActions, target.actionId = actionId) ∧
        ∃ first ∈ result.legalActions.head?, first.actionType = "choice_target"
  | _ => False

/-- When a call may be made. What changes the game is done with the lease. Nothing is
    played or captured in a game that has faulted, and an action is played where it was
    chosen. -/
def Rightful (earlier : List (GameCall ς κ β)) : GameCall ς κ β → Prop
  | .step held chosenAt action actionId _ => held = true ∧ Open earlier ∧
      (actionId = action.actionId ∧ StandsAt env chosenAt earlier ∨
        AsksTarget chosenAt action actionId earlier)
  | .captureSnapshot => Open earlier
  | .reset held _ _ => held = true
  | .restore held _ _ => held = true
  | _ => True

/-- Every call that was made might be made. -/
def AllRightful : List (GameCall ς κ β) → Prop
  | [] => True
  | call :: earlier => Rightful env earlier call ∧ AllRightful earlier

theorem rightful_of_mem {calls later earlier : List (GameCall ς κ β)} {call : GameCall ς κ β}
    (h : AllRightful env calls) (hsplit : calls = later ++ call :: earlier) :
    Rightful env earlier call := by
  subst hsplit
  induction later with
  | nil => exact h.1
  | cons last later ih => exact ih h.2

end Notes

namespace LiveSession

/-- What a session keeps true. -/
structure Safe (env : SessionEnv γ ς κ π β) (session : LiveSession γ ς κ β) : Prop where
  rightful : AllRightful env session.calls
  «open» : session.sessionFaulted = false → Open session.calls

/-- The same, but for a fault that is not marked yet. -/
def SafeBut (env : SessionEnv γ ς κ π β) (fault : ClrException → Bool) (error : SessionError)
    (session : LiveSession γ ς κ β) : Prop :=
  AllRightful env session.calls ∧
    ((∀ exception, error = .clr exception → fault exception = false) →
      session.sessionFaulted = false → Open session.calls)

/-- An action may be played that was chosen in the state. -/
structure Ready (env : SessionEnv γ ς κ π β) (state : BattleState β)
    (session : LiveSession γ ς κ β) : Prop where
  safe : session.Safe env
  unfaulted : session.sessionFaulted = false
  holds : session.holds = true
  stands : StandsAt env state session.calls

/-- A call is noted down. -/
def noted (session : LiveSession γ ς κ β) (game : γ) (call : GameCall ς κ β) :
    LiveSession γ ς κ β :=
  { session with game, calls := call :: session.calls }

end LiveSession

/-!
### Rules for calls

One rule for each of the small programs the methods are made of. A rule says what is true
of the session before and after, and what is true when the call raises.
-/

section Rules

open Act LiveSession

variable {α : Type} {P : LiveSession γ ς κ β → Prop} {Q : α → LiveSession γ ς κ β → Prop}
  {E : SessionError → LiveSession γ ς κ β → Prop}

theorem triple_ask {act : Act ClrException γ α}
    {note : Bool → Except ClrException α → GameCall ς κ β}
    (hok : ∀ s game a, P s → Q a (s.noted game (note s.holds (.ok a))))
    (herror : ∀ s game e, P s → E (.clr e) (s.noted game (note s.holds (.error e)))) :
    Triple P (ask act note) Q E := by
  intro s hs
  unfold ask
  rcases act s.game with ⟨e | a, game⟩
  · exact herror s game e hs
  · exact hok s game a hs

theorem keeps_python (value : Except PyError α) : Keeps P (python value : Method γ ς κ β α) :=
  .ofExcept _

/-- A value that is come by is the one that was asked for. -/
theorem triple_python {value : Except PyError α} (hE : ∀ e s, P s → E e s) :
    Triple P (python value : Method γ ς κ β α) (fun a s => P s ∧ value = .ok a) E := by
  refine Triple.ofExcept (fun s a hs ha => ⟨hs, ?_⟩) fun s e hs _ => hE e s hs
  cases value with
  | ok b =>
      cases ha
      rfl
  | error e => cases ha

/-- What the handler of a quiescent boundary leaves. -/
theorem keeps_quiescentRaised (e : SessionError) :
    Keeps P (quiescentRaised e : Method γ ς κ β Unit) := by
  unfold quiescentRaised
  split
  · exact .raise _
  · exact .pure ()

theorem keeps_readRaised (e : SessionError) : Keeps P (readRaised e : Method γ ς κ β Unit) := by
  unfold readRaised
  split
  · exact .raise _
  · exact .pure ()

/-- The lease is claimed if there is none, and is the current one then. -/
theorem triple_mutatingGame
    (hP : ∀ s access lease, P s → P { s with access, lease }) :
    Triple P (mutatingGame : Method γ ς κ β Unit) (fun _ s => P s ∧ s.holds = true)
      fun _ => P := by
  -- A lease that is held is checked, and what follows the check holds it.
  have hvalidate : ∀ lease, Triple (fun s : LiveSession γ ς κ β => P s ∧ s.lease = some lease)
      (do
        let session ← Act.get
        python (session.access.validateCurrent lease) : Method γ ς κ β Unit)
      (fun _ s => P s ∧ s.holds = true) fun _ => P := by
    intro lease s hs
    rw [get_bind]
    refine (triple_python (P := fun t => t = s) fun _ t ht => ht ▸ hs.1).conseq (fun _ h => h)
      (fun u t ht => ?_) (fun _ _ h => h) s rfl
    rcases ht with ⟨rfl, hvalid⟩
    refine ⟨hs.1, ?_⟩
    unfold LiveSession.holds
    rw [hs.2]
    dsimp only
    rw [hvalid]
    rfl
  -- A session without a lease claims one first, and claiming changes nothing but the lease.
  intro s hs
  unfold mutatingGame
  rw [get_bind]
  cases hlease : s.lease with
  | some lease => exact hvalidate lease s ⟨hs, hlease⟩
  | none =>
      refine Triple.bind (P := fun t => t = s) (Q := fun _ t => t = s) (E := fun _ => P) ?_
        (fun claimed => ?_) s rfl
      · exact (triple_python (P := fun t => t = s) fun _ t ht => ht ▸ hs).conseq (fun _ h => h)
          (fun _ _ h => h.1) fun _ _ h => h
      · refine Triple.bind (Q := fun _ t => P t ∧ t.lease = some claimed.1) ?_ fun _ =>
          hvalidate claimed.1
        exact Triple.modify fun t ht => ht ▸ ⟨hP s _ _ hs, rfl⟩

end Rules

/-!
### Every call is rightful

From the rules: each method keeps the session safe, so a safe session makes rightful calls
only. A fault is the delicate case: the call that raised has been noted, and the mark has
not been set yet.
-/

section Safety

open Act LiveSession

variable (env : SessionEnv γ ς κ π β)

/-- A call that may be made, and in which the game does not fault. -/
theorem LiveSession.Safe.noted {env : SessionEnv γ ς κ π β} {s : LiveSession γ ς κ β}
    (h : s.Safe env) (game : γ) {call : GameCall ς κ β} (hfaults : call.faults = false)
    (hright : Rightful env s.calls call) : (s.noted game call).Safe env where
  rightful := ⟨hright, h.rightful⟩
  «open» hunfaulted := .inr ⟨hfaults, h.open hunfaulted⟩

/-- A session that holds the lease, faulted or not. -/
def Holding (faulted : Bool) (s : LiveSession γ ς κ β) : Prop :=
  s.Safe env ∧ s.holds = true ∧ s.sessionFaulted = faulted

variable {faulted : Bool}

theorem holding_of_mutatingGame : Triple (fun s => s.Safe env ∧ s.sessionFaulted = faulted)
    (mutatingGame : Method γ ς κ β Unit) (fun _ => Holding env faulted)
    fun _ s => s.Safe env := by
  refine (triple_mutatingGame (P := fun s => s.Safe env ∧ s.sessionFaulted = faulted)
    fun s access lease hs => ⟨⟨hs.1.rightful, hs.1.open⟩, hs.2⟩).conseq (fun _ h => h)
    (fun _ s h => ⟨h.1.1, h.2, h.1.2⟩) fun _ _ h => h.1

/-- The game is rebuilt from every state that gives the scenario. -/
theorem triple_resetFromScenario (scenario : ς) :
    Triple (Holding env faulted) (resetFromScenario env scenario)
      (fun _ s => Holding env faulted s ∧ Open s.calls ∧ ∀ state,
        env.buildScenarioFromState state.engineState state.shuffleRngSeed = .ok scenario →
          StandsAt env state s.calls) fun _ s => s.Safe env := by
  refine triple_ask (fun s game result hs => ?_) fun s game e hs => ?_
  · exact ⟨⟨⟨⟨hs.2.1, hs.1.rightful⟩, fun _ => .inl rfl⟩, hs.2.1, hs.2.2⟩, .inl rfl,
      fun _ hscenario => hscenario⟩
  · exact hs.1.noted game rfl hs.2.1

/-- The actions are read where the game stands. -/
theorem triple_askLegalActions {R : BattleState β → Prop} :
    Triple (fun s => Holding env faulted s ∧ Open s.calls ∧ ∀ state, R state →
        StandsAt env state s.calls) (askLegalActions env)
      (fun _ s => Holding env faulted s ∧ Open s.calls ∧ ∀ state, R state →
        StandsAt env state s.calls) fun _ s => s.Safe env := by
  refine triple_ask (fun s game _ hs => ?_) fun s game _ hs => ?_
  · exact ⟨⟨hs.1.1.noted game rfl trivial, hs.1.2⟩, .inr ⟨rfl, hs.2.1⟩, hs.2.2⟩
  · exact hs.1.1.noted game rfl trivial

theorem keeps_askLegalActions : Keeps (fun s => s.Safe env) (askLegalActions env) :=
  triple_ask (fun _ game _ hs => hs.noted game rfl trivial)
    fun _ game _ hs => hs.noted game rfl trivial

theorem keeps_askObservation : Keeps (fun s => s.Safe env) (askObservation env) :=
  triple_ask (fun _ game _ hs => hs.noted game rfl trivial)
    fun _ game _ hs => hs.noted game rfl trivial

theorem keeps_ensureSessionNotFaulted :
    Triple (fun s => s.Safe env) (ensureSessionNotFaulted : Method γ ς κ β Unit)
      (fun _ s => s.Safe env ∧ s.sessionFaulted = false) fun _ s => s.Safe env := by
  intro s hs
  unfold ensureSessionNotFaulted
  rw [get_bind]
  refine Triple.raiseIf (P := fun t => t = s) (fun t ht hfaulted => ?_)
    (fun t ht _ => ht ▸ hs) s rfl
  rw [ht]
  exact ⟨hs, Bool.eq_false_iff.mpr hfaulted⟩

/-- A combat that was set up is handed out. -/
theorem triple_handOut (state : BattleState β) :
    Triple (fun s => s.Safe env ∧ Open s.calls) (handOut state)
      (fun _ s => s.Safe env) fun _ s => s.Safe env :=
  Triple.bind (Q := fun _ s => s.Safe env)
    (Triple.modify fun _ hs => ⟨hs.1.rightful, fun _ => hs.2⟩) fun _ => Triple.pure fun _ h => h

theorem keeps_startCombat (spec : π) : Keeps (fun s => s.Safe env) (startCombat env spec) := by
  intro s hs
  refine Triple.bind (P := fun t => t.Safe env ∧ t.sessionFaulted = s.sessionFaulted)
    (Q := fun _ t => t.Safe env ∧ t.sessionFaulted = s.sessionFaulted) ?_ (fun scenario => ?_) s
    ⟨hs, rfl⟩
  · exact (triple_python fun _ _ h => h.1).conseq (fun _ h => h) (fun _ _ h => h.1) fun _ _ h => h
  refine (holding_of_mutatingGame env).bind fun _ => ?_
  refine Triple.bind ((triple_resetFromScenario env scenario).onError fun e =>
    keeps_quiescentRaised e) fun result => ?_
  exact (triple_handOut env _).conseq (fun _ h => ⟨h.1.1, h.2.1⟩) (fun _ _ h => h) fun _ _ h => h

/-- The handler of a restore marks the fault. -/
theorem triple_restoreRaised (e : SessionError) :
    Triple (SafeBut env ClrException.restoreFault e) (restoreRaised e : Method γ ς κ β Unit)
      (fun _ s => s.Safe env) fun _ s => s.Safe env := by
  have hsafe : ∀ s : LiveSession γ ς κ β, SafeBut env ClrException.restoreFault e s →
      (∀ exception, e = .clr exception → exception.restoreFault = false) → s.Safe env :=
    fun s hs hfault => ⟨hs.1, hs.2 hfault⟩
  unfold restoreRaised
  split
  · exact Triple.raise fun s hs => hsafe s hs fun _ h => by cases h; rfl
  · refine Triple.bind (Q := fun _ s => s.Safe env) (Triple.modify fun s hs => ?_) fun _ =>
      Triple.raise fun _ h => h
    exact ⟨hs.1, fun hunfaulted => by cases hunfaulted⟩
  · exact Triple.raise fun s hs => hsafe s hs fun _ h => by cases h; rfl
  · rename_i hfailed _
    refine Triple.pure fun s hs => hsafe s hs fun exception h => ?_
    cases exception with
    | snapshotRestoreFailed message => exact absurd h (hfailed message)
    | _ => rfl

/-- A restore leaves the session safe, with the mark set if the game faulted in it. -/
theorem keeps_restoreSnapshot (snapshot : κ) :
    Keeps (fun s => s.Safe env) (restoreSnapshot env snapshot) := by
  intro s hs
  refine Triple.bind (P := fun t => t.Safe env ∧ t.sessionFaulted = s.sessionFaulted)
    (holding_of_mutatingGame env) (fun _ => ?_) s ⟨hs, rfl⟩
  refine Triple.bind (Triple.onError (E := SafeBut env ClrException.restoreFault)
    (Q := fun _ s => s.Safe env ∧ Open s.calls) ?_ fun e => triple_restoreRaised env e) fun _ =>
      triple_handOut env _
  refine triple_ask (fun t game result ht => ?_) fun t game e ht => ?_
  · exact ⟨⟨⟨ht.2.1, ht.1.rightful⟩, fun _ => .inl rfl⟩, .inl rfl⟩
  · exact ⟨⟨ht.2.1, ht.1.rightful⟩, fun hfault hunfaulted =>
      .inr ⟨hfault e rfl, ht.1.open hunfaulted⟩⟩

/-- Resuming is a restore of the state that was handed out. -/
theorem keeps_resumeFrom (state : BattleState β) :
    Keeps (fun s => s.Safe env) (resumeFrom env state) := by
  intro s hs
  refine Triple.bind (P := fun t => t.Safe env ∧ t.sessionFaulted = s.sessionFaulted)
    (holding_of_mutatingGame env) (fun _ => ?_) s ⟨hs, rfl⟩
  refine Triple.bind (triple_python fun _ _ h => h.1) fun scenario => ?_
  refine Triple.bind (((triple_resetFromScenario env scenario).onError fun e =>
    keeps_quiescentRaised e).conseq (fun _ h => h.1) (fun _ _ h => h) fun _ _ h => h) fun _ => ?_
  refine Triple.bind (triple_askLegalActions env) fun _ => ?_
  refine Triple.bind (Q := fun _ t => t.Safe env ∧ Open t.calls) ?_ fun obs => triple_handOut env _
  exact triple_ask (fun _ game _ h => ⟨h.1.1.noted game rfl trivial, .inr ⟨rfl, h.2.1⟩⟩)
    fun _ game _ h => h.1.1.noted game rfl trivial

theorem keeps_adoptCurrentCombat : Keeps (fun s => s.Safe env) (adoptCurrentCombat env) := by
  refine (keeps_askObservation env).bind fun obs => (keeps_askLegalActions env).bind fun _ => ?_
  split
  · exact .raise _
  · exact .raise _
  · exact Keeps.bind (.modify fun s hs => ⟨hs.rightful, hs.open⟩) fun _ => .pure _

theorem keeps_captureSnapshot : Keeps (fun s => s.Safe env) (captureSnapshot env) := by
  refine Triple.bind (keeps_ensureSessionNotFaulted env) fun _ => ?_
  refine Triple.bind (Q := fun _ (s : LiveSession γ ς κ β) => s.Safe env) ?_ fun json =>
    keeps_python _
  refine (Triple.onError ?_ fun e => keeps_quiescentRaised e).onError fun e => keeps_readRaised e
  exact triple_ask (fun s game _ hs => hs.1.noted game rfl (hs.1.open hs.2))
    fun s game _ hs => hs.1.noted game rfl (hs.1.open hs.2)

theorem keeps_getObservation : Keeps (fun s => s.Safe env) (getObservation env) :=
  Triple.bind (keeps_ensureSessionNotFaulted env) fun _ => Triple.onError
    ((keeps_askObservation env).conseq (fun _ h => h.1) (fun _ _ h => h) fun _ _ h => h)
    fun e => keeps_readRaised e

theorem keeps_getLegalActions : Keeps (fun s => s.Safe env) (getLegalActions env) :=
  Triple.bind (keeps_ensureSessionNotFaulted env) fun _ => Triple.onError
    ((keeps_askLegalActions env).conseq (fun _ h => h.1) (fun _ _ h => h) fun _ _ h => h)
    fun e => keeps_readRaised e

/-- An action may be played of which `asked` has the id: it was chosen where the game
    stands, or it is a target that the game asks for. -/
structure Playable (chosenAt : BattleState β) (action : LegalAction) (asked : Int)
    (s : LiveSession γ ς κ β) : Prop where
  holding : Holding env false s
  place : asked = action.actionId ∧ StandsAt env chosenAt s.calls ∨
    AsksTarget chosenAt action asked s.calls

/-- What comes of a call to play. -/
theorem triple_askStep (chosenAt : BattleState β) (action : LegalAction) (asked : Int) :
    Triple (Playable env chosenAt action asked) (askStep env chosenAt action asked)
      (fun result s => Holding env false s ∧ ∃ held earlier,
        s.calls = .step held chosenAt action asked (.ok result) :: earlier)
      (SafeBut env ClrException.actionFault) := by
  refine triple_ask (fun s game result hs => ?_) fun s game e hs => ?_
  · have hopen := hs.holding.1.open hs.holding.2.2
    exact ⟨⟨⟨⟨⟨hs.holding.2.1, hopen, hs.place⟩, hs.holding.1.rightful⟩, fun _ =>
      .inr ⟨rfl, hopen⟩⟩, hs.holding.2⟩, _, _, rfl⟩
  · have hopen := hs.holding.1.open hs.holding.2.2
    exact ⟨⟨⟨hs.holding.2.1, hopen, hs.place⟩, hs.holding.1.rightful⟩, fun hfault _ =>
      .inr ⟨hfault e rfl, hopen⟩⟩

/-- The target that is taken is one of those that are offered. -/
theorem chosenTarget_mem {first target : LegalAction} {rest : List LegalAction}
    {targetIndex targetEnemyIndex : Option Int}
    (h : chosenTarget first rest targetIndex targetEnemyIndex = .ok target) :
    target ∈ first :: rest := by
  unfold chosenTarget at h
  split at h
  · split at h
    · rename_i found hfound
      cases h
      exact List.mem_of_find?_eq_some hfound
    · cases h
  · cases h
    rw [List.getD_eq_getElem?_getD]
    generalize (max 0 (min (targetIndex.getD 0) rest.length)).toNat = index
    rcases hget : (first :: rest)[index]? with _ | found
    · exact List.mem_cons_self
    · exact List.mem_of_getElem? hget

/-- The state an action led to is the one the game stands at. -/
theorem triple_settle {chosenAt : BattleState β} {action : LegalAction} {asked : Int}
    (result : StepResult β) :
    Triple (fun s : LiveSession γ ς κ β => Holding env false s ∧ ∃ held earlier,
        s.calls = .step held chosenAt action asked (.ok result) :: earlier)
      (Act.ofExcept (BattleEmulator.settle env chosenAt action result))
      (fun next s => s.Ready env next) (SafeBut env ClrException.actionFault) := by
  refine Triple.ofExcept (fun s next hs hnext => ?_) fun s e hs _ => ?_
  · rcases hs with ⟨hholding, held, earlier, hcalls⟩
    refine ⟨hholding.1, hholding.2.2, hholding.2.1, ?_⟩
    rw [hcalls]
    exact hnext
  · exact ⟨hs.1.1.rightful, fun _ => hs.1.1.open⟩

/-- An action is played with its target if it has one, and with a second call where the game
asks for it. -/
theorem triple_stepLiveAction (chosenAt : BattleState β) (action : LegalAction)
    (targetIndex targetEnemyIndex : Option Int) :
    Triple (fun s => s.Ready env chosenAt)
      (stepLiveAction env chosenAt action targetIndex targetEnemyIndex)
      (fun next s => s.Ready env next) (SafeBut env ClrException.actionFault) := by
  refine Triple.bind ((triple_askStep env chosenAt action action.actionId).conseq
    (fun s hs => ⟨⟨hs.safe, hs.holds, hs.unfaulted⟩, .inl ⟨rfl, hs.stands⟩⟩) (fun _ _ h => h)
    fun _ _ h => h) fun result => ?_
  split
  · rename_i first rest hoffered
    split
    · rename_i htarget
      refine Triple.bind (triple_python fun _ s hs => ⟨hs.1.1.rightful, fun _ => hs.1.1.open⟩)
        fun target => Triple.bind ((triple_askStep env chosenAt action target.actionId).conseq
          (fun s hs => ⟨hs.1.1, .inr ?_⟩) (fun _ _ h => h) fun _ _ h => h) fun targeted =>
            triple_settle env targeted
      rcases hs with ⟨⟨_, held, earlier, hcalls⟩, hchosen⟩
      rw [hcalls]
      refine ⟨rfl, rfl, ⟨target, ?_, rfl⟩, first, ?_, htarget⟩
      · rw [hoffered]
        exact chosenTarget_mem hchosen
      · rw [hoffered]
        rfl
    · exact triple_settle env result
  · exact triple_settle env result

/-- The handler of an action marks the fault. -/
theorem triple_actionRaised (action : LegalAction) (targetIndex targetEnemyIndex : Option Int)
    (e : SessionError) :
    Triple (SafeBut env ClrException.actionFault e)
      (actionRaised action targetIndex targetEnemyIndex e : Method γ ς κ β Unit)
      (fun _ s => s.Safe env) fun _ s => s.Safe env := by
  have hsafe : ∀ s : LiveSession γ ς κ β, SafeBut env ClrException.actionFault e s →
      (∀ exception, e = .clr exception → exception.actionFault = false) → s.Safe env :=
    fun s hs hfault => ⟨hs.1, hs.2 hfault⟩
  unfold actionRaised
  split
  · exact Triple.raise fun s hs => hsafe s hs fun _ h => by cases h; rfl
  · intro s hs
    exact ⟨hs.1, fun hunfaulted => by cases hunfaulted⟩
  · intro s hs
    exact ⟨hs.1, fun hunfaulted => by cases hunfaulted⟩
  · rename_i hfaulted hsession
    refine Triple.pure fun s hs => hsafe s hs fun exception h => ?_
    cases exception with
    | actionFaulted message => exact absurd h (hfaulted message)
    | faultedCombatSession message => exact absurd h (hsession message)
    | _ => rfl

theorem triple_playAction (chosenAt : BattleState β) (action : LegalAction)
    (targetIndex targetEnemyIndex : Option Int) :
    Triple (fun s => s.Ready env chosenAt)
      (playAction env chosenAt action targetIndex targetEnemyIndex)
      (fun next s => s.Ready env next) fun _ s => s.Safe env :=
  (triple_stepLiveAction env chosenAt action targetIndex targetEnemyIndex).onError fun e =>
    triple_actionRaised env action targetIndex targetEnemyIndex e

/-- The actions are listed without leaving the state, or after it was rebuilt. -/
theorem triple_enumerateLegalActions (state : BattleState β) :
    Triple (fun s => s.Ready env state) (enumerateLegalActions env state)
      (fun listed s => s.Ready env listed.2) fun _ s => s.Safe env := by
  have hfetch : Triple (fun s => s.Ready env state) (enumerateLegalActions.fetch env state)
      (fun listed s => s.Ready env listed.2) fun _ s => s.Safe env := by
    refine Triple.bind (Q := fun scenario s => Holding env false s ∧
      env.buildScenarioFromState state.engineState state.shuffleRngSeed = .ok scenario) ?_
      fun scenario => ?_
    · exact (triple_python (P := Holding env false) fun _ _ h => h.1).conseq
        (fun s hs => ⟨hs.safe, hs.holds, hs.unfaulted⟩) (fun _ _ h => h) fun _ _ h => h
    · intro s hs
      refine Triple.bind (triple_resetFromScenario env scenario) (fun _ =>
        Triple.bind (triple_askLegalActions env) fun legalActions => ?_) s hs.1
      refine Triple.pure fun t ht => ⟨ht.1.1, ht.1.2.2, ht.1.2.1, ht.2.2 _ ?_⟩
      -- Remembering the actions does not change what a scenario is built from.
      split <;> exact hs.2
  unfold enumerateLegalActions
  split
  · exact Triple.pure fun _ h => h
  · split
    · split
      · exact Triple.pure fun _ h => h
      · exact hfetch
    · exact hfetch

-- Induction on the steps that are left: each begins where the last one led.
/-- Every further step of a continuation is played on the state the one before it led to. -/
theorem triple_resolveContinuation (resolver : Resolver γ β) (stopAtPending : Bool) :
    ∀ (left : Nat) (state : BattleState β), Triple (fun s => s.Ready env state)
      (resolveContinuation env resolver stopAtPending left state) (fun _ s => s.Safe env)
      fun _ s => s.Safe env := by
  intro left
  induction left with
  | zero =>
      intro state
      unfold resolveContinuation
      split
      · exact Triple.pure fun _ h => h.safe
      · exact Triple.raise fun _ h => h.safe
  | succ left ih =>
      intro state
      unfold resolveContinuation
      split
      · exact Triple.pure fun _ h => h.safe
      · refine Triple.bind (triple_enumerateLegalActions env state) fun listed => ?_
        refine Triple.bind (Q := fun _ s => s.Ready env listed.2) ?_ fun action =>
          (triple_playAction env listed.2 action none none).bind fun next => ih next
        refine triple_ask (fun s game _ hs => ?_) fun s game _ hs => ?_
        · exact ⟨hs.safe.noted game rfl trivial, hs.unfaulted, hs.holds, hs.stands⟩
        · exact hs.safe.noted game rfl trivial

/-- The game is where it was left, or is rebuilt. -/
theorem triple_isStillCurrent {state : BattleState β} {frame : DecisionFrame}
    (hframe : state.decisionFrame = some frame) :
    Triple (Holding env false) (isStillCurrent env frame)
      (fun still s => Holding env false s ∧ (still = true → StandsAt env state s.calls))
      fun _ s => s.Safe env := by
  refine Triple.bind (Q := fun obs s => Holding env false s ∧
    ∃ earlier, s.calls = .getObservation (.ok obs) :: earlier) ?_ fun obs => ?_
  · exact triple_ask (fun s game _ hs => ⟨⟨hs.1.noted game rfl trivial, hs.2⟩, _, rfl⟩)
      fun s game _ hs => hs.1.noted game rfl trivial
  · refine Triple.pure fun s hs => ⟨hs.1, fun hstill => ?_⟩
    rcases hs.2 with ⟨earlier, hcalls⟩
    rw [hcalls]
    exact ⟨frame, hframe, of_decide_eq_true hstill⟩

/-- After resynchronizing the game stands at the state that was asked for. -/
theorem triple_resynchronize (state : BattleState β) :
    Triple (Holding env false) (resynchronize env state) (fun _ s => s.Ready env state)
      fun _ s => s.Safe env := by
  refine Triple.bind (triple_python fun _ _ h => h.1) fun scenario => ?_
  intro s hs
  refine Triple.bind (P := Holding env false) (Q := fun _ s => s.Ready env state)
    (Triple.onError ?_ fun e => keeps_quiescentRaised e) (fun _ => Triple.modify fun t ht => ?_)
    s hs.1
  · refine Triple.bind ((holding_of_mutatingGame env).conseq (fun s hs => ⟨hs.1, hs.2.2⟩)
      (fun _ _ h => h) fun _ _ h => h) fun _ => (triple_resetFromScenario env scenario).conseq
        (fun _ h => h) (fun _ t ht => ?_) fun _ _ h => h
    exact ⟨ht.1.1, ht.1.2.2, ht.1.2.1, ht.2.2 state hs.2⟩
  · exact ⟨⟨ht.safe.rightful, fun _ => ht.safe.open ht.unfaulted⟩, rfl, ht.holds, ht.stands⟩

/-- A step makes rightful calls only, whatever it comes to. -/
theorem keeps_step (state : BattleState β) (action : LegalAction)
    (targetIndex targetEnemyIndex : Option Int) (resolver : Option (Resolver γ β))
    (stopAtPending : Bool) : Keeps (fun s => s.Safe env)
      (step env state action targetIndex targetEnemyIndex resolver stopAtPending) := by
  intro s hs
  unfold step
  rw [get_bind]
  -- A step checks in turn that a combat is set up, that no fault is open and that the state is
  -- the current one; none of this changes anything.
  rcases s.currentFrame with _ | frame
  · exact hs
  refine Triple.bind (keeps_ensureSessionNotFaulted env) (fun _ => ?_) s hs
  refine Triple.bind (Q := fun _ s => (s.Safe env ∧ s.sessionFaulted = false) ∧
    state.decisionFrame = some frame) (Triple.raiseIf (fun _ hs hframe => ⟨hs, ?_⟩)
    fun _ hs _ => hs.1) fun _ => ?_
  · exact Decidable.not_not.mp hframe
  intro t ht
  refine Triple.bind (P := fun s => s.Safe env ∧ s.sessionFaulted = false)
    (Triple.raiseIf (Q := fun _ s => s.Safe env ∧ s.sessionFaulted = false) (fun _ h _ => h)
      fun _ h _ => h.1) (fun _ => ?_) t ht.1
  refine Triple.bind (Q := fun _ s => s.Safe env ∧ s.sessionFaulted = false)
    (Triple.modify fun _ h => ⟨⟨h.1.rightful, h.1.open⟩, h.2⟩) fun _ => ?_
  -- From here on the lease is held and the frame is the state's.
  refine (holding_of_mutatingGame env).bind fun _ => ?_
  refine (triple_isStillCurrent env ht.2).bind fun still => ?_
  -- The game is where the action was chosen: it still was, or it was put back there.
  refine Triple.bind (Q := fun _ s => s.Ready env state) ?_ fun _ => ?_
  · unfold onlyIf
    split
    · exact (triple_resynchronize env state).conseq (fun _ h => h.1) (fun _ _ h => h) fun _ _ h => h
    · rename_i hstill
      exact Triple.pure fun _ h => ⟨h.1.1, h.1.2.2, h.1.2.1, h.2 (by simpa using hstill)⟩
  -- So the action can be sent, and the continuation follows what it led to.
  · refine (triple_playAction env state action targetIndex targetEnemyIndex).bind fun next => ?_
    refine (triple_resolveContinuation env _ stopAtPending _ next).bind fun settled => ?_
    exact Keeps.bind (.modify fun _ h => ⟨h.rightful, h.open⟩) fun _ => .pure _

end Safety

/-!
### Runs

A run is a list of calls, among them uses of the game by others. The notes of one run are
never taken back, so what is rightful stays so.
-/

section Runs

open Act LiveSession

variable (env : SessionEnv γ ς κ π β)

theorem keeps_acceptTransferredLease (lease : GameLease) :
    Keeps (fun s : LiveSession γ ς κ β => s.Safe env) (acceptTransferredLease lease) :=
  Keeps.get.bind fun _ => (Keeps.raiseIf _ _).bind fun _ => (keeps_python _).bind fun _ =>
    .modify fun _ h => ⟨h.rightful, h.open⟩

theorem keeps_beginLeaseTransfer :
    Keeps (fun s : LiveSession γ ς κ β => s.Safe env) beginLeaseTransfer := by
  refine Keeps.get.bind fun _ => ?_
  split
  · exact .raise _
  · exact (keeps_python _).bind fun _ =>
      Keeps.bind (.modify fun _ h => ⟨h.rightful, h.open⟩) fun _ => .pure _

theorem keeps_close : Keeps (fun s : LiveSession γ ς κ β => s.Safe env) close := by
  refine Keeps.get.bind fun _ => Keeps.bind (.modify fun _ h => ⟨h.rightful, h.open⟩) fun _ => ?_
  split
  · exact .pure ()
  · split
    · exact .modify fun _ h => ⟨h.rightful, h.open⟩
    · exact .pure ()

theorem answered_safe {α : Type} {method : Method γ ς κ β α} {session : LiveSession γ ς κ β}
    (reply : α → Reply κ β) (hmethod : Keeps (fun s => s.Safe env) method)
    (hs : session.Safe env) : (answered reply method session).1.Safe env := by
  have hafter := hmethod.after hs
  unfold answered
  generalize method session = ended at hafter ⊢
  rcases ended with ⟨_ | _, s⟩ <;> exact hafter

/-- Every call to the game that is made might be made. -/
theorem perform_keeps (session : LiveSession γ ς κ β) (call : Call γ κ π β)
    (hs : session.Safe env) : (perform env session call).1.Safe env := by
  cases call with
  | startCombat spec => exact answered_safe env _ (keeps_startCombat env spec) hs
  | restoreSnapshot snapshot => exact answered_safe env _ (keeps_restoreSnapshot env snapshot) hs
  | resumeFrom state => exact answered_safe env _ (keeps_resumeFrom env state) hs
  | adoptCurrentCombat => exact answered_safe env _ (keeps_adoptCurrentCombat env) hs
  | getObservation => exact answered_safe env _ (keeps_getObservation env) hs
  | getLegalActions => exact answered_safe env _ (keeps_getLegalActions env) hs
  | captureSnapshot => exact answered_safe env _ (keeps_captureSnapshot env) hs
  | step state action targetIndex targetEnemyIndex resolver stopAtPending =>
      exact answered_safe env _ (keeps_step env state action targetIndex targetEnemyIndex resolver
        stopAtPending) hs
  | acceptTransferredLease lease =>
      exact answered_safe env _ (keeps_acceptTransferredLease env lease) hs
  | beginLeaseTransfer => exact answered_safe env _ (keeps_beginLeaseTransfer env) hs
  | close => exact answered_safe env _ (keeps_close env) hs
  | others game access => exact ⟨hs.rightful, hs.open⟩

/-- In every run, whatever the game answers and whoever else uses it: an action is sent to
    the game with the lease, and right after the session saw the game where the action was
    chosen, or rebuilt it from there, or played the action that led there; and after a
    fault none is, and no snapshot is captured, until a combat is set up. -/
theorem played_in_place (game : γ) (access : GameAccess) (holder : Nat)
    (run : List (Call γ κ π β)) (later earlier : List (GameCall ς κ β)) (call : GameCall ς κ β)
    (hcalls : (Run.final (perform env) (.new game access holder) run).calls =
      later ++ call :: earlier) : Rightful env earlier call := by
  refine rightful_of_mem env (Run.invariant (perform env) (I := fun s => s.Safe env)
    (fun s call hs => perform_keeps env s call hs) _ run ?_).rightful hcalls
  exact ⟨trivial, fun _ => trivial⟩

/-- A game that counts the actions. -/
def countingObservation (count : Nat) : GameObservation Unit :=
  ⟨⟨[⟨some 0, some "LOUSE", true, some 10, some 10, none⟩], some 50,
    some (some 1), none, ()⟩, false,
    "in_progress", some "session", count, none⟩

/-- The one action of a game that counts. -/
def countingStrike : LegalAction := ⟨7, "play_card", "strike", none, none⟩

/-- A game that counts the actions it is sent. -/
def countingEnv : SessionEnv Nat Unit Unit Unit Unit where
  getObservation count := (.ok (countingObservation count), count)
  getLegalActions count := (.ok [countingStrike], count)
  step _ count := (.ok ⟨countingObservation (count + 1), [countingStrike], none⟩, count + 1)
  resetFromScenario _ _ := (.ok ⟨countingObservation 0, [countingStrike]⟩, 0)
  restoreSnapshot _ count := (.ok ⟨countingObservation count, [countingStrike]⟩, count)
  captureSnapshotJson count := (.ok "", count)
  parseSnapshot _ := .ok ()
  buildScenarioFromSpec _ := .ok ()
  buildScenarioFromState _ _ := .ok ()
  defaultResolver _ _ count := (.ok countingStrike, count)
  useLegalActionCache := true
  wholeRunMode := false

/-- A combat is begun, and one action played in it. -/
theorem played_in_place_small : Rightful countingEnv
    [.getObservation (.ok (countingObservation 0)),
      .reset true () (.ok ⟨countingObservation 0, [countingStrike]⟩)]
    (.step true (BattleEmulator.wrap (countingObservation 0) 1
      (recordMaxHps (countingObservation 0).state) none (some [countingStrike]) none)
      countingStrike 7 (.ok ⟨countingObservation 1, [countingStrike], none⟩)) :=
  played_in_place countingEnv 0 {} 1
    [.startCombat (), .step (BattleEmulator.wrap (countingObservation 0) 1
      (recordMaxHps (countingObservation 0).state) none (some [countingStrike]) none)
      countingStrike none none none true] [] _ _ rfl

end Runs

/-!
### Conditions that do not look at the game

Most methods change nothing but the notes, the lease and the marks. A condition that does
not depend on these is kept by them, and it is enough to look at the few that hand a state
out.
-/

section Frames

open Act LiveSession

variable (env : SessionEnv γ ς κ π β)

/-- A condition that does not look at the lease and the marks, and that more calls do not
    break. -/
structure Blind (P : LiveSession γ ς κ β → Prop) : Prop where
  noted : ∀ s game call, P s → P (s.noted game call)
  leased : ∀ s access lease, P s → P { s with access, lease }
  marked : ∀ s faulted context, P s → P { s with
    sessionFaulted := faulted
    lastFaultContext := context }
  resynchronized : ∀ s count, P s → P { s with
    lastStepResynchronized := true
    resynchronizeCount := count
    sessionFaulted := false }

/-- The exception of an action that was chosen in another state. -/
def SessionError.isMismatch : SessionError → Bool
  | decisionFrameMismatch _ _ => true
  | _ => false

/-- The exceptions of a session that has faulted. -/
def SessionError.isFault : SessionError → Bool
  | actionExecution _ => true
  | faultedCombatSession _ => true
  | _ => false

/-- An exception that leaves the condition: no frames were compared, and a fault is marked. -/
structure Raised (P : LiveSession γ ς κ β → Prop) (e : SessionError) (s : LiveSession γ ς κ β) :
    Prop where
  kept : P s
  matched : e.isMismatch = false
  marked : e.isFault = true → s.sessionFaulted = true

/-- The condition is kept, also by an exception. -/
def Plain {α : Type} (P : LiveSession γ ς κ β → Prop) (method : Method γ ς κ β α) : Prop :=
  Triple P method (fun _ => P) (Raised P)

variable {α δ : Type} {P : LiveSession γ ς κ β → Prop}

theorem Raised.of_other {e : SessionError} {s : LiveSession γ ς κ β} (hs : P s)
    (hmatched : e.isMismatch = false) (hfault : e.isFault = false) : Raised P e s :=
  ⟨hs, hmatched, fun h => by rw [hfault] at h; cases h⟩

theorem Plain.keeps {method : Method γ ς κ β α} (h : Plain P method) : Keeps P method :=
  h.conseq (fun _ hs => hs) (fun _ _ hs => hs) fun _ _ hs => hs.kept

theorem Plain.pure (a : α) : Plain P (pure a : Method γ ς κ β α) := fun _ hs => hs

theorem Plain.bind {method : Method γ ς κ β α} {next : α → Method γ ς κ β δ}
    (h : Plain P method) (hnext : ∀ a, Plain P (next a)) : Plain P (method >>= next) :=
  Triple.bind h hnext

theorem Plain.raise {e : SessionError} (hmatched : e.isMismatch = false)
    (hfault : e.isFault = false) : Plain P (Act.raise e : Method γ ς κ β α) :=
  Triple.raise fun _ hs => .of_other hs hmatched hfault

theorem Plain.modify {f : LiveSession γ ς κ β → LiveSession γ ς κ β} (h : ∀ s, P s → P (f s)) :
    Plain P (Act.modify f) :=
  Triple.modify h

theorem Plain.python (value : Except PyError α) : Plain P (python value : Method γ ς κ β α) := by
  refine Triple.ofExcept (fun _ _ hs _ => hs) fun _ e hs he => ?_
  cases value with
  | ok a => cases he
  | error error =>
      cases he
      exact .of_other hs rfl rfl

theorem raised_quiescentRaised (e : SessionError) :
    Triple (Raised P e) (quiescentRaised e : Method γ ς κ β Unit) (fun _ => Raised P e)
      (Raised P) := by
  unfold quiescentRaised
  split
  · exact Triple.raise fun _ hs => .of_other hs.kept rfl rfl
  · exact fun _ hs => hs

/-- What is raised is passed on, or translated. -/
theorem triple_onError {P₀ : LiveSession γ ς κ β → Prop} {method : Method γ ς κ β α}
    {handler : SessionError → Method γ ς κ β Unit}
    (h : Triple P₀ method (fun _ => P) (Raised P))
    (hhandler : ∀ e, Triple (Raised P e) (handler e) (fun _ => Raised P e) (Raised P)) :
    Triple P₀ (method.onError handler) (fun _ => P) (Raised P) := by
  refine Triple.onError (F := Raised P) h fun e s hs => ?_
  have hhandled := hhandler e s hs
  generalize handler e s = ended at hhandled ⊢
  rcases ended with ⟨_ | _, s'⟩ <;> exact hhandled

theorem Plain.onError {method : Method γ ς κ β α} {handler : SessionError → Method γ ς κ β Unit}
    (h : Plain P method)
    (hhandler : ∀ e, Triple (Raised P e) (handler e) (fun _ => Raised P e) (Raised P)) :
    Plain P (method.onError handler) :=
  triple_onError h hhandler

/-- A state is settled on, or an assertion is broken. -/
theorem Plain.settle (chosenAt : BattleState β) (action : LegalAction) (result : StepResult β) :
    Plain P (Act.ofExcept (BattleEmulator.settle env chosenAt action result) :
      Method γ ς κ β (BattleState β)) := by
  refine Triple.ofExcept (fun _ _ hs _ => hs) fun _ e hs he => ?_
  unfold BattleEmulator.settle at he
  dsimp only at he
  rcases htransition : result.transition with _ | transition
  · rw [htransition] at he
    cases he
  rw [htransition] at he
  dsimp only at he
  by_cases hkind : transition.kind = "combat_completed"
  · rw [if_pos hkind] at he
    by_cases hterminal : (!env.wholeRunMode && !result.observation.isTerminal) = true
    · rw [if_pos hterminal] at he
      cases he
      exact .of_other hs rfl rfl
    · rw [if_neg hterminal] at he
      cases he
  · rw [if_neg hkind] at he
    cases he

variable (hP : Blind P)
include hP

theorem Blind.ask (act : Act ClrException γ α)
    (note : Bool → Except ClrException α → GameCall ς κ β) : Plain P (ask act note) :=
  triple_ask (fun _ _ _ h => hP.noted _ _ _ h) fun _ _ _ h =>
    .of_other (hP.noted _ _ _ h) rfl rfl

theorem Blind.mutatingGame : Plain P (mutatingGame : Method γ ς κ β Unit) := by
  have hvalidate : ∀ lease, Plain P (do
      let session ← Act.get
      python (session.access.validateCurrent lease) : Method γ ς κ β Unit) :=
    fun lease => Triple.bind (Triple.get fun _ hs => hs) fun _ => Plain.python _
  refine Triple.bind (Triple.get fun _ hs => hs) fun session => ?_
  cases session.lease with
  | some lease => exact hvalidate lease
  | none =>
      exact (Plain.python _).bind fun claimed => Plain.bind
        (.modify fun s hs => hP.leased s _ _ hs) fun _ => hvalidate claimed.1

theorem Blind.actionRaised (action : LegalAction) (targetIndex targetEnemyIndex : Option Int)
    (e : SessionError) : Triple (Raised P e)
      (actionRaised action targetIndex targetEnemyIndex e : Method γ ς κ β Unit)
      (fun _ => Raised P e) (Raised P) := by
  unfold Live.actionRaised
  split
  · exact Triple.raise fun _ hs => .of_other hs.kept rfl rfl
  · exact fun s hs => ⟨hP.marked s _ _ hs.kept, rfl, fun _ => rfl⟩
  · exact fun s hs => ⟨hP.marked s _ _ hs.kept, rfl, fun _ => rfl⟩
  · exact fun _ hs => hs

/-- Playing an action keeps what its first call establishes. -/
theorem Blind.playAction_of {P₀ : LiveSession γ ς κ β → Prop} {state : BattleState β}
    {action : LegalAction}
    (hask : Triple P₀ (askStep env state action action.actionId) (fun _ => P) (Raised P))
    (targetIndex targetEnemyIndex : Option Int) :
    Triple P₀ (playAction env state action targetIndex targetEnemyIndex) (fun _ => P)
      (Raised P) := by
  refine triple_onError (Triple.bind hask fun result => ?_) fun e =>
    hP.actionRaised action targetIndex targetEnemyIndex e
  split
  · split
    · exact (Plain.python _).bind fun _ => (hP.ask _ _).bind fun _ => Plain.settle env _ _ _
    · exact Plain.settle env _ _ _
  · exact Plain.settle env _ _ _

theorem Blind.playAction (state : BattleState β) (action : LegalAction)
    (targetIndex targetEnemyIndex : Option Int) :
    Plain P (playAction env state action targetIndex targetEnemyIndex) :=
  hP.playAction_of env (hP.ask _ _) targetIndex targetEnemyIndex

/-- Listing the actions hands no state out. -/
theorem Blind.enumerateLegalActions (state : BattleState β) :
    Plain P (enumerateLegalActions env state) := by
  have hfetch : Plain P (enumerateLegalActions.fetch env state) :=
    (Plain.python _).bind fun _ => (hP.ask _ _).bind fun _ => (hP.ask _ _).bind fun _ => .pure _
  unfold Live.enumerateLegalActions
  split
  · exact .pure _
  · split
    · split
      · exact .pure _
      · exact hfetch
    · exact hfetch

/-- Nor does a continuation, whatever its resolver does. -/
theorem Blind.resolveContinuation (resolver : Resolver γ β) (stopAtPending : Bool) (left : Nat) :
    ∀ state : BattleState β,
      Plain P (resolveContinuation env resolver stopAtPending left state) := by
  induction left with
  | zero =>
      intro state
      unfold Live.resolveContinuation
      split
      · exact .pure _
      · exact .raise rfl rfl
  | succ left ih =>
      intro state
      unfold Live.resolveContinuation
      split
      · exact .pure _
      · exact (hP.enumerateLegalActions env state).bind fun _ => (hP.ask _ _).bind fun _ =>
          (hP.playAction env _ _ none none).bind fun next => ih next

theorem Blind.resynchronize (state : BattleState β) : Plain P (resynchronize env state) :=
  (Plain.python _).bind fun _ => Plain.bind (Plain.onError
    (hP.mutatingGame.bind fun _ => hP.ask _ _) fun e => raised_quiescentRaised e) fun _ =>
      .modify fun s h => hP.resynchronized s _ h

/-- The game is rebuilt if it is not where it was left. -/
theorem Blind.resynchronizeIf (state : BattleState β) (still : Bool) :
    Plain P (Act.onlyIf (still = false) (Live.resynchronize env state)) := by
  unfold onlyIf
  split
  · exact hP.resynchronize env state
  · exact .pure ()

end Frames

/-!
### The state that was handed out last

The frame the session compares with is the frame of the last state in its replies. A
caller can therefore tell from the replies alone which state an action has to be chosen
in.
-/

section LastState

open Act LiveSession

variable (env : SessionEnv γ ς κ π β)

/-- The frame that a session compares with. -/
def FrameIs (frame : Option DecisionFrame) (s : LiveSession γ ς κ β) : Prop :=
  s.currentFrame = frame

theorem blind_frameIs (frame : Option DecisionFrame) :
    Blind (FrameIs frame : LiveSession γ ς κ β → Prop) where
  noted _ _ _ h := h
  leased _ _ _ h := h
  marked _ _ _ h := h
  resynchronized _ _ h := h

/-- A method that does not hand a state out leaves the frame, and while the frame is the
    one that is presented, its exception does not say that it is not. -/
structure Refused (presented : Option DecisionFrame → Prop) (frame : Option DecisionFrame)
    (e : SessionError) (s : LiveSession γ ς κ β) : Prop where
  kept : FrameIs frame s
  matched : presented frame → e.isMismatch = false
  marked : e.isFault = true → s.sessionFaulted = true

/-- The frame of a state that is handed out is compared with next. -/
def Handed (presented : Option DecisionFrame → Prop) (method : Method γ ς κ β (BattleState β)) :
    Prop :=
  ∀ frame, Triple (FrameIs frame) method (fun state => FrameIs state.decisionFrame)
    (Refused presented frame)

variable {presented : Option DecisionFrame → Prop} {frame : Option DecisionFrame}

theorem Refused.of_other {e : SessionError} {s : LiveSession γ ς κ β} (hs : FrameIs frame s)
    (hmatched : presented frame → e.isMismatch = false) (hfault : e.isFault = false) :
    Refused presented frame e s :=
  ⟨hs, hmatched, fun h => by rw [hfault] at h; cases h⟩

/-- What comes before a state is handed out. -/
theorem Plain.before {α : Type} {method : Method γ ς κ β α}
    {next : α → Method γ ς κ β (BattleState β)} {Q : BattleState β → LiveSession γ ς κ β → Prop}
    (h : Plain (FrameIs frame) method)
    (hnext : ∀ a, Triple (FrameIs frame) (next a) Q (Refused presented frame)) :
    Triple (FrameIs frame) (method >>= next) Q (Refused presented frame) :=
  Triple.bind (h.conseq (fun _ hs => hs) (fun _ _ hs => hs)
    fun _ _ hs => ⟨hs.kept, fun _ => hs.matched, hs.marked⟩) hnext

theorem handed_startCombat (spec : π) : Handed presented (startCombat env spec) := fun frame =>
  have blind := blind_frameIs frame
  (Plain.python _).before fun _ => blind.mutatingGame.before fun _ =>
    ((blind.ask _ _).onError fun e => raised_quiescentRaised e).before fun _ => fun _ _ => rfl

/-- A restore hands the state out that it restored. -/
theorem handed_restoreSnapshot (snapshot : κ) :
    Handed presented (restoreSnapshot env snapshot) := by
  intro frame
  have blind : Blind (FrameIs frame : LiveSession γ ς κ β → Prop) := blind_frameIs frame
  refine blind.mutatingGame.before fun _ => (Plain.onError (blind.ask _ _) fun e => ?_).before
    fun _ => fun _ _ => rfl
  unfold restoreRaised
  split
  · exact Triple.raise fun _ hs => .of_other hs.kept rfl rfl
  · exact fun _ hs => .of_other hs.kept rfl rfl
  · exact Triple.raise fun _ hs => .of_other hs.kept rfl rfl
  · exact fun _ hs => hs

theorem handed_resumeFrom (state : BattleState β) : Handed presented (resumeFrom env state) :=
  fun frame =>
    have blind := blind_frameIs frame
    blind.mutatingGame.before fun _ => (Plain.python _).before fun _ =>
      ((blind.ask _ _).onError fun e => raised_quiescentRaised e).before fun _ =>
        (blind.ask _ _).before fun _ => (blind.ask _ _).before fun _ => fun _ _ => rfl

theorem handed_adoptCurrentCombat : Handed presented (adoptCurrentCombat env) := by
  intro frame
  have blind : Blind (FrameIs frame : LiveSession γ ς κ β → Prop) := blind_frameIs frame
  refine (blind.ask _ _).before fun obs => (blind.ask _ _).before fun _ => ?_
  split
  · exact Triple.raise fun _ h => .of_other h (fun _ => rfl) rfl
  · exact Triple.raise fun _ h => .of_other h (fun _ => rfl) rfl
  · exact fun _ _ => rfl

/-- A state with the frame that is compared with is not taken for another. -/
theorem handed_step (state : BattleState β) (action : LegalAction)
    (targetIndex targetEnemyIndex : Option Int) (resolver : Option (Resolver γ β))
    (stopAtPending : Bool) : Handed (fun frame => state.decisionFrame = frame)
      (step env state action targetIndex targetEnemyIndex resolver stopAtPending) := by
  intro frame s hs
  have blind : Blind (FrameIs frame : LiveSession γ ς κ β → Prop) := blind_frameIs frame
  -- Each part of a step is blind to the frame until the state is handed out, so a part that
  -- fails leaves it, and the last one writes it.
  unfold step
  rw [get_bind]
  rcases hcurrent : s.currentFrame with _ | current
  · exact .of_other hs (fun _ => rfl) rfl
  have hframe : some current = frame := hcurrent.symm.trans hs
  -- The checks before the game is asked are the ones whose outcome says whether the frame was
  -- named.
  refine Triple.bind (P := FrameIs frame) (Q := fun _ => FrameIs frame) ?_ (fun _ => ?_) s hs
  · intro t ht
    refine Triple.raiseIf (P := fun u => u = t) (fun u hu _ => ?_) (fun u hu hfaulted => ?_) t rfl
    · rw [hu]
      exact ht
    · rw [hu]
      exact ⟨ht, fun _ => rfl, fun _ => hfaulted⟩
  refine Triple.bind (Triple.raiseIf (Q := fun _ => FrameIs frame) (fun _ h _ => h)
    fun _ h hstate => .of_other h (fun heq => absurd (heq.trans hframe.symm) hstate) rfl)
    fun _ => ?_
  refine Triple.bind (Triple.raiseIf (Q := fun _ => FrameIs frame) (fun _ h _ => h)
    fun _ h _ => .of_other h (fun _ => rfl) rfl) fun _ => ?_
  refine Triple.bind (Q := fun _ => FrameIs frame) (Triple.modify fun _ h => h) fun _ => ?_
  refine blind.mutatingGame.before fun _ => ?_
  refine ((blind.ask _ _).bind fun _ => .pure _).before fun still => ?_
  refine (blind.resynchronizeIf env state still).before fun _ => ?_
  refine (blind.playAction env state action targetIndex targetEnemyIndex).before fun next => ?_
  refine (blind.resolveContinuation env _ stopAtPending _ next).before fun settled => ?_
  exact fun _ _ => rfl

/-- The frame that is compared with after a reply. -/
def Reply.frameAfter (frame : Option DecisionFrame) : Reply κ β → Option DecisionFrame
  | .state handed => handed.decisionFrame
  | _ => frame

/-- The frame of the last state in some replies. -/
def lastFrame (replies : List (Reply κ β)) : Option DecisionFrame :=
  replies.foldl Reply.frameAfter none

theorem currentFrame_handed {method : Method γ ς κ β (BattleState β)} (h : Handed presented method)
    (s : LiveSession γ ς κ β) : (answered .state method s).1.currentFrame =
      (answered .state method s).2.frameAfter (κ := κ) s.currentFrame := by
  have hends := h s.currentFrame s rfl
  unfold answered
  generalize method s = ended at hends ⊢
  rcases ended with ⟨_ | state, s'⟩
  · exact hends.kept
  · exact hends

/-- Other methods hand no state out. -/
theorem currentFrame_other {α : Type} {method : Method γ ς κ β α} {reply : α → Reply κ β}
    (s : LiveSession γ ς κ β) (h : Keeps (FrameIs s.currentFrame) method)
    (hreply : ∀ a, (reply a).frameAfter s.currentFrame = s.currentFrame) :
    (answered reply method s).1.currentFrame =
      (answered reply method s).2.frameAfter s.currentFrame := by
  have hafter := h.after (s := s) rfl
  unfold answered
  generalize method s = ended at hafter ⊢
  rcases ended with ⟨_ | value, s'⟩
  · exact hafter
  · exact Eq.trans hafter (hreply value).symm

/-- Every call leaves the frame of what it replied, or the one there was. -/
theorem currentFrame_perform (s : LiveSession γ ς κ β) (call : Call γ κ π β) :
    (perform env s call).1.currentFrame =
      (perform env s call).2.frameAfter s.currentFrame := by
  have blind : Blind (FrameIs s.currentFrame : LiveSession γ ς κ β → Prop) := blind_frameIs _
  have hask : ∀ {α : Type} (act : Act ClrException γ α)
      (note : Bool → Except ClrException α → GameCall ς κ β),
      Keeps (FrameIs s.currentFrame) (ask act note) := fun act note => (blind.ask act note).keeps
  have hread : ∀ e, Keeps (FrameIs s.currentFrame) (readRaised e : Method γ ς κ β Unit) :=
    fun e => keeps_readRaised e
  have hensure : Keeps (FrameIs s.currentFrame) (ensureSessionNotFaulted : Method γ ς κ β Unit) :=
    Keeps.get.bind fun _ => .raiseIf _ _
  -- The calls that hand out a state write its frame; the others leave the one that is there.
  cases call with
  | startCombat spec =>
      have hhanded : Handed (fun _ => True) (startCombat env spec) := handed_startCombat env spec
      exact currentFrame_handed hhanded s
  | restoreSnapshot snapshot =>
      have hhanded : Handed (fun _ => True) (restoreSnapshot env snapshot) :=
        handed_restoreSnapshot env snapshot
      exact currentFrame_handed hhanded s
  | resumeFrom state =>
      have hhanded : Handed (fun _ => True) (resumeFrom env state) := handed_resumeFrom env state
      exact currentFrame_handed hhanded s
  | adoptCurrentCombat =>
      have hhanded : Handed (fun _ => True) (adoptCurrentCombat env) :=
        handed_adoptCurrentCombat env
      exact currentFrame_handed hhanded s
  | step state action targetIndex targetEnemyIndex resolver stopAtPending =>
      exact currentFrame_handed (handed_step env state action targetIndex targetEnemyIndex resolver
        stopAtPending) s
  | getObservation =>
      exact currentFrame_other s (hensure.bind fun _ => (hask _ _).onError hread) fun _ => rfl
  | getLegalActions =>
      exact currentFrame_other s (hensure.bind fun _ => (hask _ _).onError hread) fun _ => rfl
  | captureSnapshot =>
      exact currentFrame_other s (hensure.bind fun _ => (((hask _ _).onError fun e =>
        keeps_quiescentRaised e).onError hread).bind fun _ => keeps_python _) fun _ => rfl
  | acceptTransferredLease lease =>
      exact currentFrame_other s (Keeps.get.bind fun _ => (Keeps.raiseIf _ _).bind fun _ =>
        (keeps_python _).bind fun _ => .modify fun _ h => h) fun _ => rfl
  | beginLeaseTransfer =>
      refine currentFrame_other s (Keeps.get.bind fun t => ?_) fun _ => rfl
      split
      · exact .raise _
      · exact (keeps_python _).bind fun _ => Keeps.bind (.modify fun _ h => h) fun _ => .pure _
  | close =>
      refine currentFrame_other s (Keeps.get.bind fun t => Keeps.bind (.modify fun _ h => h)
        fun _ => ?_) fun _ => rfl
      split
      · exact .pure ()
      · split
        · exact .modify fun _ h => h
        · exact .pure ()
  | others game access => rfl

/-- The session compares with the frame of the last state that it handed out. -/
theorem currentFrame_final (start : LiveSession γ ς κ β) (hstart : start.currentFrame = none)
    (run : List (Call γ κ π β)) : (Run.final (perform env) start run).currentFrame =
      lastFrame (Run.outputs (perform env) start run) := by
  induction run using List.reverseRecOn with
  | nil => exact hstart
  | append_singleton run call ih =>
      rw [Run.final_concat, Run.outputs_concat, currentFrame_perform, ih]
      unfold lastFrame
      rw [List.foldl_append]
      rfl

end LastState

/-!
### When an action is sent

An action is sent to the game exactly when its checks pass and the game is brought back to
the state it was chosen in. What can go wrong before it is sent is listed in `Cleared` and
`BroughtBack`.
-/

section Admission

open Act LiveSession

variable (env : SessionEnv γ ς κ π β)

/-- The session has the lease, or can claim it. -/
def LiveSession.CanHold (s : LiveSession γ ς κ β) : Prop :=
  match s.lease with
  | some lease => s.access.Current lease
  | none => s.access.state ≠ .poisoned ∧ s.access.state ≠ .transferring

theorem python_of_ok {α : Type} {value : Except PyError α} {a : α} (h : value = .ok a)
    (s : LiveSession γ ς κ β) : (python value : Method γ ς κ β α) s = (.ok a, s) := by
  rw [h]
  rfl

theorem python_of_error {α : Type} {value : Except PyError α} {e : PyError} (h : value = .error e)
    (s : LiveSession γ ς κ β) :
    (python value : Method γ ς κ β α) s = (.error (.python e), s) := by
  rw [h]
  rfl

/-- The lease is there afterwards. -/
theorem mutatingGame_of_canHold {s : LiveSession γ ς κ β} (h : s.CanHold) :
    ∃ access lease, (mutatingGame : Method γ ς κ β Unit) s = (.ok (), { s with access, lease }) ∧
      LiveSession.CanHold { s with access, lease } := by
  unfold LiveSession.CanHold at h
  unfold mutatingGame
  rw [get_bind]
  rcases hlease : s.lease with _ | lease
  · rw [hlease] at h
    have hclaim : ∃ claimed, s.access.claim s.leaseHolder .combat = .ok claimed := by
      unfold GameAccess.claim
      rw [if_neg h.1, if_neg h.2]
      exact ⟨_, rfl⟩
    rcases hclaim with ⟨⟨lease, access⟩, hclaim⟩
    have hcurrent := (GameAccess.current_of_claim (.inr rfl) hclaim).1
    refine ⟨access, some lease, ?_, hcurrent⟩
    dsimp only
    rw [bind_of_ok _ (python_of_ok hclaim s)]
    exact python_of_ok (GameAccess.validateCurrent_eq_ok.mpr hcurrent) _
  · rw [hlease] at h
    refine ⟨s.access, some lease, ?_, h⟩
    have hsame : ({ s with lease := some lease } : LiveSession γ ς κ β) = s := by rw [← hlease]
    rw [hsame]
    exact python_of_ok (GameAccess.validateCurrent_eq_ok.mpr h) s

/-- A lease that cannot be had is refused, and nothing is changed. -/
theorem mutatingGame_of_not_canHold {s : LiveSession γ ς κ β} (h : ¬ s.CanHold) :
    ∃ error, (mutatingGame : Method γ ς κ β Unit) s = (.error error, s) := by
  unfold LiveSession.CanHold at h
  unfold mutatingGame
  rw [get_bind]
  rcases hlease : s.lease with _ | lease
  · rw [hlease] at h
    have hclaim : ∃ e, s.access.claim s.leaseHolder .combat = .error e := by
      unfold GameAccess.claim
      split
      · exact ⟨_, rfl⟩
      · rename_i hpoisoned
        split
        · exact ⟨_, rfl⟩
        · rename_i htransferring
          exact absurd ⟨hpoisoned, htransferring⟩ h
    rcases hclaim with ⟨e, hclaim⟩
    exact ⟨_, bind_of_error _ (python_of_error hclaim s)⟩
  · rw [hlease] at h
    rcases hvalid : s.access.validateCurrent lease with e | u
    · exact ⟨_, python_of_error hvalid s⟩
    · exact absurd (GameAccess.validateCurrent_eq_ok.mp hvalid) h

/-- What `step` checks of the action, before it looks at the game. -/
structure Cleared (state : BattleState β) (action : LegalAction) (last : Option DecisionFrame)
    (s : LiveSession γ ς κ β) : Prop where
  unfaulted : s.sessionFaulted = false
  started : last ≠ none
  lastState : state.decisionFrame = last
  moves : action.actionType = "system" → enemiesMissingCurrentMove state.engineState = []
  lease : s.CanHold

/-- The game can be looked at, and stands where the state was handed out or can be set up
    there again. -/
def BroughtBack (state : BattleState β) (game : γ) : Prop :=
  ∃ obs game', env.getObservation game = (.ok obs, game') ∧
    ((∃ frame, state.decisionFrame = some frame ∧ obs.combatSessionId = frame.combatSessionId ∧
        obs.stepIndex = frame.stepIndex) ∨
      ∃ scenario result game'',
        env.buildScenarioFromState state.engineState state.shuffleRngSeed = .ok scenario ∧
        env.resetFromScenario scenario game' = (.ok result, game''))

/-- When an action is sent to the game. -/
structure Admitted (state : BattleState β) (action : LegalAction) (last : Option DecisionFrame)
    (s : LiveSession γ ς κ β) : Prop where
  cleared : Cleared state action last s
  inPlace : BroughtBack env state s.game

/-- A call plays an action. -/
def GameCall.plays : GameCall ς κ β → Bool
  | step .. => true
  | _ => false

/-- The action is sent in one of the calls. -/
def Sent (state : BattleState β) (action : LegalAction) (calls : List (GameCall ς κ β)) : Prop :=
  ∃ held outcome, .step held state action action.actionId outcome ∈ calls

/-- The action has been sent since so many calls were made. -/
def SentSince (state : BattleState β) (action : LegalAction) (before : List (GameCall ς κ β))
    (s : LiveSession γ ς κ β) : Prop :=
  ∃ noted, s.calls = noted ++ before ∧ Sent state action noted

/-- Other calls have been made since, none of which plays an action. -/
def LookedSince (before : List (GameCall ς κ β)) (s : LiveSession γ ς κ β) : Prop :=
  ∃ noted, s.calls = noted ++ before ∧ ∀ call ∈ noted, call.plays = false

theorem blind_sentSince (state : BattleState β) (action : LegalAction)
    (before : List (GameCall ς κ β)) :
    Blind (SentSince state action before : LiveSession γ ς κ β → Prop) where
  noted s game call h := by
    rcases h with ⟨noted, hcalls, held, outcome, hmem⟩
    exact ⟨call :: noted, congrArg (call :: ·) hcalls, held, outcome,
      List.mem_cons_of_mem _ hmem⟩
  leased _ _ _ h := h
  marked _ _ _ h := h
  resynchronized _ _ h := h

theorem LookedSince.noted {before : List (GameCall ς κ β)} {s : LiveSession γ ς κ β}
    (h : LookedSince before s) (game : γ) {call : GameCall ς κ β} (hplays : call.plays = false) :
    LookedSince before (s.noted game call) := by
  rcases h with ⟨noted, hcalls, hnone⟩
  exact ⟨call :: noted, congrArg (call :: ·) hcalls, List.forall_mem_cons.mpr ⟨hplays, hnone⟩⟩

theorem raiseIf_of_not {c : Prop} [Decidable c] {e : SessionError} (h : ¬ c)
    (s : LiveSession γ ς κ β) : (raiseIf c e : Method γ ς κ β Unit) s = (.ok (), s) := by
  unfold raiseIf
  rw [if_neg h]
  rfl

theorem raiseIf_of {c : Prop} [Decidable c] {e : SessionError} (h : c)
    (s : LiveSession γ ς κ β) : (raiseIf c e : Method γ ς κ β Unit) s = (.error e, s) := by
  unfold raiseIf
  rw [if_pos h]
  rfl

theorem ensureSessionNotFaulted_of_unfaulted {s : LiveSession γ ς κ β}
    (h : s.sessionFaulted = false) :
    (ensureSessionNotFaulted : Method γ ς κ β Unit) s = (.ok (), s) :=
  raiseIf_of_not (Bool.eq_false_iff.mp h) s

theorem ensureSessionNotFaulted_of_faulted {s : LiveSession γ ς κ β}
    (h : s.sessionFaulted = true) : (ensureSessionNotFaulted : Method γ ς κ β Unit) s =
      (.error (.faultedCombatSession (s.currentFrame.bind (·.combatSessionId))), s) :=
  raiseIf_of h s

/-- The call that plays an action notes it down. -/
theorem sentSince_playAction (state : BattleState β) (action : LegalAction)
    (before : List (GameCall ς κ β)) (targetIndex targetEnemyIndex : Option Int) :
    Triple (LookedSince before) (playAction env state action targetIndex targetEnemyIndex)
      (fun _ => SentSince state action before) (Raised (SentSince state action before)) := by
  have hsent : ∀ (s : LiveSession γ ς κ β) game held outcome, LookedSince before s →
      SentSince state action before
        (s.noted game (.step held state action action.actionId outcome)) := by
    rintro s game held outcome ⟨noted, hcalls, -⟩
    exact ⟨_ :: noted, congrArg (_ :: ·) hcalls, held, outcome, List.mem_cons_self⟩
  exact (blind_sentSince state action before).playAction_of env
    (triple_ask (fun _ _ _ h => hsent _ _ _ _ h) fun _ _ _ h => .of_other (hsent _ _ _ _ h) rfl rfl)
    targetIndex targetEnemyIndex

/-- Setting the game up again plays nothing. -/
theorem lookedSince_resynchronize {s : LiveSession γ ς κ β} {before : List (GameCall ς κ β)}
    (hlease : s.CanHold) (h : LookedSince before s) (state : BattleState β) :
    (∃ scenario result game s',
      env.buildScenarioFromState state.engineState state.shuffleRngSeed = .ok scenario ∧
      env.resetFromScenario scenario s.game = (.ok result, game) ∧
      resynchronize env state s = (.ok (), s') ∧ LookedSince before s') ∨
    (¬ ∃ scenario result game,
      env.buildScenarioFromState state.engineState state.shuffleRngSeed = .ok scenario ∧
      env.resetFromScenario scenario s.game = (.ok result, game)) ∧
      ∃ e s', resynchronize env state s = (.error e, s') ∧ LookedSince before s' := by
  unfold resynchronize
  -- Without a scenario the game is not asked.
  rcases hbuild : env.buildScenarioFromState state.engineState state.shuffleRngSeed with
    e | scenario
  · refine .inr ⟨?_, _, s, bind_of_error _ (python_of_error rfl s), h⟩
    rintro ⟨scenario, -, -, hok, -⟩
    cases hok
  rw [bind_of_ok _ (python_of_ok rfl s)]
  -- The lease is held or claimed, so the scenario reaches the game.
  rcases mutatingGame_of_canHold hlease with ⟨access, lease, hgame, -⟩
  have hreset : (do mutatingGame; resetFromScenario env scenario : Method γ ς κ β _) s =
      resetFromScenario env scenario { s with access, lease } := bind_of_ok _ hgame
  have hasked : resetFromScenario env scenario { s with access, lease } =
      ((env.resetFromScenario scenario s.game).1.mapError .clr, LiveSession.noted
        { s with access, lease } (env.resetFromScenario scenario s.game).2
        (.reset (LiveSession.holds { s with access, lease }) scenario
          (env.resetFromScenario scenario s.game).1)) := rfl
  rw [hasked] at hreset
  have hleased : LookedSince before { s with access, lease } := h
  have hnoted : LookedSince before (LiveSession.noted { s with access, lease }
      (env.resetFromScenario scenario s.game).2
      (.reset (LiveSession.holds { s with access, lease }) scenario
        (env.resetFromScenario scenario s.game).1)) := hleased.noted _ rfl
  -- The game refuses it, or the session has looked at the state it answers with.
  rcases hended : env.resetFromScenario scenario s.game with ⟨e | result, game⟩
  · rw [hended] at hreset hnoted
    right
    refine ⟨?_, ?_⟩
    · rintro ⟨scenario', result, game', hok, hreset'⟩
      cases hok
      rw [hended] at hreset'
      cases hreset'
    · rcases onError_of_error s hreset with ⟨e', hraised⟩
      exact ⟨e', _, bind_of_error _ hraised, (keeps_quiescentRaised _).after hnoted⟩
  · rw [hended] at hreset hnoted
    left
    exact ⟨scenario, result, game, _, rfl, hended, bind_of_ok _ (onError_of_ok s hreset), hnoted⟩

/-- What is left of `step` once the game stands where the action was chosen. -/
theorem sentSince_rest (state : BattleState β) (action : LegalAction)
    (before : List (GameCall ς κ β)) (targetIndex targetEnemyIndex : Option Int)
    (resolver : Resolver γ β) (stopAtPending : Bool) {s : LiveSession γ ς κ β}
    (h : LookedSince before s) :
    SentSince state action before ((do
      let next ← playAction env state action targetIndex targetEnemyIndex
      let settled ← resolveContinuation env resolver stopAtPending maxContinuationSteps next
      Act.modify fun session => { session with
        stepCount := session.stepCount + 1
        currentFrame := settled.decisionFrame }
      pure settled : Method γ ς κ β (BattleState β)) s).2 := by
  have blind : Blind (SentSince state action before : LiveSession γ ς κ β → Prop) :=
    blind_sentSince state action before
  refine Triple.after (I := SentSince state action before) (Triple.bind
    ((sentSince_playAction env state action before targetIndex targetEnemyIndex).conseq
      (fun _ hs => hs) (fun _ _ hs => hs) fun _ _ hs => hs.kept) fun next => ?_) h
  refine Plain.keeps ((blind.resolveContinuation env resolver stopAtPending _ next).bind
    fun settled => ?_)
  exact Plain.bind (.modify fun _ hs => hs) fun _ => .pure _

/-- Once an action has passed its checks, it is sent exactly where the game can be brought
    back to where it was chosen. -/
theorem step_of_cleared {s : LiveSession γ ς κ β} {state : BattleState β} {action : LegalAction}
    (h : Cleared state action s.currentFrame s) (targetIndex targetEnemyIndex : Option Int)
    (resolver : Option (Resolver γ β)) (stopAtPending : Bool) :
    (BroughtBack env state s.game ∧ SentSince state action s.calls
      (step env state action targetIndex targetEnemyIndex resolver stopAtPending s).2) ∨
    (¬ BroughtBack env state s.game ∧ LookedSince s.calls
      (step env state action targetIndex targetEnemyIndex resolver stopAtPending s).2) := by
  rcases hcurrent : s.currentFrame with _ | frame
  · exact absurd hcurrent h.started
  have hstate := h.lastState
  rw [hcurrent] at hstate
  rcases mutatingGame_of_canHold (s := { s with lastStepResynchronized := false }) h.lease with
    ⟨access, lease, hgame, hlease⟩
  unfold step
  rw [get_bind, hcurrent]
  dsimp only
  rw [bind_of_ok _ (ensureSessionNotFaulted_of_unfaulted h.unfaulted),
    bind_of_ok _ (raiseIf_of_not (not_not.mpr hstate) s),
    bind_of_ok _ (raiseIf_of_not (fun hmissing => hmissing.2 (h.moves hmissing.1)) s),
    modify_bind, bind_of_ok _ hgame]
  generalize hsession : ({ s with lastStepResynchronized := false, access, lease } :
    LiveSession γ ς κ β) = session at hlease ⊢
  have hlooked : LookedSince s.calls session := by
    rw [← hsession]
    exact ⟨[], rfl, fun _ hmem => by cases hmem⟩
  have hgame' : session.game = s.game := by rw [← hsession]
  rw [← hgame']
  -- The game is looked at.
  have hasked : askObservation env session =
      ((env.getObservation session.game).1.mapError .clr, session.noted
        (env.getObservation session.game).2
        (.getObservation (env.getObservation session.game).1)) := rfl
  rcases hobserved : env.getObservation session.game with ⟨e | obs, game⟩
  · rw [hobserved] at hasked
    have hraised : isStillCurrent env frame session = _ := bind_of_error _ hasked
    rw [bind_of_error _ hraised]
    refine .inr ⟨?_, hlooked.noted game rfl⟩
    rintro ⟨obs, game', hok, -⟩
    rw [hobserved] at hok
    cases hok
  rw [hobserved] at hasked
  have hstill : isStillCurrent env frame session = (.ok (decide
      (obs.combatSessionId = frame.combatSessionId ∧ obs.stepIndex = frame.stepIndex)),
      session.noted game (.getObservation (.ok obs))) := bind_of_ok _ hasked
  rw [bind_of_ok _ hstill]
  have hseen : LookedSince s.calls (session.noted game (.getObservation (.ok obs))) :=
    hlooked.noted game rfl
  by_cases hthere : obs.combatSessionId = frame.combatSessionId ∧ obs.stepIndex = frame.stepIndex
  · -- It stands there.
    rw [decide_eq_true hthere]
    exact .inl ⟨⟨obs, game, hobserved, .inl ⟨frame, hstate, hthere⟩⟩,
      sentSince_rest env state action s.calls targetIndex targetEnemyIndex _ stopAtPending hseen⟩
  · rw [decide_eq_false hthere]
    -- It is set up there again.
    rcases lookedSince_resynchronize env (s := session.noted game (.getObservation (.ok obs)))
      hlease hseen state with ⟨scenario, result, game', s', hbuild, hreset, hdone, hlooked'⟩ |
      ⟨hnot, e, s', hraised, hlooked'⟩
    · have hbrought : onlyIf (false = false) (resynchronize env state) _ = _ := hdone
      rw [bind_of_ok _ hbrought]
      exact .inl ⟨⟨obs, game, hobserved, .inr ⟨scenario, result, game', hbuild, hreset⟩⟩,
        sentSince_rest env state action s.calls targetIndex targetEnemyIndex _ stopAtPending
          hlooked'⟩
    · have hbrought : onlyIf (false = false) (resynchronize env state) _ = _ := hraised
      rw [bind_of_error _ hbrought]
      refine .inr ⟨?_, hlooked'⟩
      rintro ⟨obs', game'', hok, ⟨frame', hframe', hthere'⟩ | hreset⟩
      · rw [hobserved] at hok
        cases hok
        rw [hstate, Option.some.injEq] at hframe'
        rw [← hframe'] at hthere'
        exact hthere hthere'
      · rw [hobserved] at hok
        cases hok
        exact hnot hreset

/-- One that does not pass its checks is refused, and the game is not called. -/
theorem step_of_not_cleared {s : LiveSession γ ς κ β} {state : BattleState β}
    {action : LegalAction} (h : ¬ Cleared state action s.currentFrame s)
    (targetIndex targetEnemyIndex : Option Int) (resolver : Option (Resolver γ β))
    (stopAtPending : Bool) : ∃ error s',
      step env state action targetIndex targetEnemyIndex resolver stopAtPending s =
        (.error error, s') ∧ s'.calls = s.calls := by
  unfold step
  rw [get_bind]
  rcases hcurrent : s.currentFrame with _ | frame
  · exact ⟨_, s, rfl, rfl⟩
  dsimp only
  by_cases hfaulted : s.sessionFaulted = true
  · exact ⟨_, s, bind_of_error _ (ensureSessionNotFaulted_of_faulted hfaulted), rfl⟩
  rw [bind_of_ok _ (ensureSessionNotFaulted_of_unfaulted (Bool.eq_false_iff.mpr hfaulted))]
  by_cases hstate : state.decisionFrame ≠ some frame
  · exact ⟨_, s, bind_of_error _ (raiseIf_of hstate s), rfl⟩
  rw [bind_of_ok _ (raiseIf_of_not hstate s)]
  by_cases hmissing : action.actionType = "system" ∧
    enemiesMissingCurrentMove state.engineState ≠ []
  · exact ⟨_, s, bind_of_error _ (raiseIf_of hmissing s), rfl⟩
  rw [bind_of_ok _ (raiseIf_of_not hmissing s), modify_bind]
  have hlease : ¬ s.CanHold := fun hlease => h
    ⟨Bool.eq_false_iff.mpr hfaulted, by rw [hcurrent]; exact Option.some_ne_none _,
      by rw [hcurrent]; exact not_not.mp hstate,
      fun hsystem => not_not.mp fun hne => hmissing ⟨hsystem, hne⟩, hlease⟩
  rcases mutatingGame_of_not_canHold (s := { s with lastStepResynchronized := false }) hlease with
    ⟨e, hgame⟩
  exact ⟨e, _, bind_of_error _ hgame, rfl⟩

/-- In every run, an action is sent to the game exactly when no fault is open, the session
    has the lease or can claim it, the action was chosen in the last state that was handed
    out, every living enemy has a move if it ends the turn, and the game, where it is
    looked at, stands there or is set up there again. No other action is sent otherwise. -/
theorem answers_the_last_state (game : γ) (access : GameAccess) (holder : Nat)
    (past : List (Call γ κ π β)) (state : BattleState β) (action : LegalAction)
    (targetIndex targetEnemyIndex : Option Int) (resolver : Option (Resolver γ β))
    (stopAtPending : Bool) :
    let start : LiveSession γ ς κ β := .new game access holder
    let session := Run.final (perform env) start past
    ∃ noted, (perform env session (.step state action targetIndex targetEnemyIndex resolver
        stopAtPending)).1.calls = noted ++ session.calls ∧
      (Sent state action noted ↔
        Admitted env state action (lastFrame (Run.outputs (perform env) start past)) session) ∧
      (¬ Sent state action noted → ∀ call ∈ noted, call.plays = false) := by
  intro start session
  -- The frame that the session holds is that of the state it handed out last.
  have hframe := currentFrame_final env start rfl past
  -- What a step adds to the calls does not depend on how its answer is worded.
  have hcalls : (perform env session (.step state action targetIndex targetEnemyIndex resolver
      stopAtPending)).1 = (step env state action targetIndex targetEnemyIndex resolver
        stopAtPending session).2 := by
    refine show (answered .state _ session).1 = _ from ?_
    unfold answered
    rcases step env state action targetIndex targetEnemyIndex resolver stopAtPending session with
      ⟨_ | _, _⟩ <;> rfl
  rw [hcalls, ← hframe]
  -- The step is cleared by the checks, and then everything depends on the game; or it is not,
  -- and nothing is sent.
  by_cases hcleared : Cleared state action session.currentFrame session
  · rcases step_of_cleared env hcleared targetIndex targetEnemyIndex resolver stopAtPending with
      ⟨hplace, noted, hnoted, hsent⟩ | ⟨hplace, noted, hnoted, hnone⟩
    · exact ⟨noted, hnoted, iff_of_true hsent ⟨hcleared, hplace⟩, fun hnot => absurd hsent hnot⟩
    · refine ⟨noted, hnoted, iff_of_false ?_ fun hadmitted => hplace hadmitted.inPlace,
        fun _ => hnone⟩
      rintro ⟨held, outcome, hmem⟩
      cases hnone _ hmem
  · rcases step_of_not_cleared env hcleared targetIndex targetEnemyIndex resolver stopAtPending with
      ⟨e, s', heq, hsame⟩
    rw [heq]
    refine ⟨[], hsame, iff_of_false ?_ fun hadmitted => hcleared hadmitted.cleared, ?_⟩
    · rintro ⟨held, outcome, hmem⟩
      cases hmem
    · exact fun _ call hmem => by cases hmem

end Admission

end Live

end Combat

end STS2RL
