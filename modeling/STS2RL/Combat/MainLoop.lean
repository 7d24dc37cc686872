import STS2RL.Combat.FaithfulSession
import STS2RL.Combat.VisibleDraw
import STS2RL.Combat.Search
import STS2RL.Core.History
import Mathlib.Logic.Relation

/-!
# The Main Loop

The main process of a combat. It decides, at every boundary, whether to act
directly or to search, adopts the plan it is given, and executes the plan one
step at a time: the action is resolved against what is offered now, stepped
once, recorded in the replay prefix, and compared with the signature the plan
expected. A plan that does not resolve, or whose step arrives elsewhere, is
discarded; a step that faults ends the combat.

Who decides is `MainLoopEnv`. Its callbacks may answer differently each time, so
they are indexed by the iteration.

The loop keeps a log of what it did. The source has no such log; it is there to
say what happened, and nothing reads it.

## Main definitions

* `MainLoop`, `MainLoopEvent`: The state of the loop, and its log.
* `execLoop`, `runUntilTerminalOrFault`: The loop over a plan, and the outer loop.
* `Move`, `Fails`: What the loop can do to its state.

## Theorems

* `runUntilTerminalOrFault_follows`: A run is a sequence of moves, at the end of
  which one step may fail.
-/

namespace STS2RL

namespace Combat

variable {σ κ β : Type}

/-- Where a decision is sent. -/
inductive Route where
  | direct
  | search
  | pendingStatic
  | unknown (text : String)
  deriving DecidableEq, Repr

/-- A planned step that was carried out: the offered action it resolved to, and
    where it led. -/
structure CommittedStep (β : Type) where
  planned : PlannedStep
  resolved : LegalAction
  next : BattleState β

/-- What the loop did. -/
inductive MainLoopEvent (σ κ β : Type) where
  | captured (snapshot : κ)
  | searched (context : DecisionContext κ β) (current : BattleState β) (s : σ)
  | planned (plan : List PlannedStep)
  | unresolved (step : PlannedStep)
  | stepped (step : CommittedStep β)
  | stepFailed (step : PlannedStep) (exc : PyException)

/-- The state of the main process. -/
structure MainLoop (σ κ β : Type) extends MainLoopState κ β where
  session : σ
  plannedSequence : List PlannedStep
  combatStartReplayRoot : Option CombatStartReplayRoot
  log : List (MainLoopEvent σ κ β)

/-- How the loop ends. -/
inductive MainLoopOutcome (β : Type) where
  | terminal (finalState : BattleState β)
  | fault (exc : PyException)
  | aborted (detail : String)

/-- How the execution of a plan ends. -/
inductive ExecOutcome where
  | sequenceExhausted
  | goToBoundary
  | fault (exc : PyException)

/-- The callbacks of a run. -/
structure MainLoopEnv (κ β : Type) where
  directSelector : Nat → BattleState β → Except PyException PlannedStep
  searchStrategy : Option (Nat → DecisionContext κ β → Except PyException SearchResult)
  routingPolicy : Nat → Boundary → Except PyException Route
  pendingSelector : Nat → BattleState β → Except PyException PlannedStep

/-- `initialize_main_loop_state`. -/
def initializeMainLoopState (s : σ) (initialResult : BattleState β)
    (combatStartReplayRoot : Option CombatStartReplayRoot) : MainLoop σ κ β :=
  { session := s
    currentResult := initialResult
    heldStableSnapshot := none
    replayPrefix := []
    plannedSequence := []
    combatStartReplayRoot
    log := [] }

/-- The signature that was observed on arrival. -/
def CommittedStep.observed (step : CommittedStep β) : DecisionSignature :=
  DecisionSignature.fromBattleState step.next step.planned.semanticAction step.resolved
    step.planned.targetIndex step.planned.targetEnemyIndex

/-- Whether the step arrived where the plan expected it to. A step that expects
    nothing does. -/
def CommittedStep.matchesPlan (step : CommittedStep β) : Bool :=
  match step.planned.expectedSignature with
  | some expected => step.observed.matchesForReplay expected
  | none => true

namespace MainLoop

/-- An event is logged. -/
def record (loop : MainLoop σ κ β) (event : MainLoopEvent σ κ β) : MainLoop σ κ β :=
  { loop with log := loop.log ++ [event] }

/-- Hold a snapshot. -/
def hold (loop : MainLoop σ κ β) (snapshot : κ) : MainLoop σ κ β :=
  { loop with
    heldStableSnapshot := some snapshot
    replayPrefix := []
    log := loop.log ++ [.captured snapshot] }

/-- A plan is taken over. -/
def adopt (loop : MainLoop σ κ β) (plan : List PlannedStep) : MainLoop σ κ β :=
  { loop with plannedSequence := plan, log := loop.log ++ [.planned plan] }

/-- `DISCARD`, where a step does not resolve. -/
def discard (loop : MainLoop σ κ β) (step : PlannedStep) : MainLoop σ κ β :=
  { loop with plannedSequence := [], log := loop.log ++ [.unresolved step] }

variable (publicPiles : β → PublicPiles)

/-- `APPEND_RECORD`: the entry for a step. Draws are tracked only from a snapshot. -/
def transitionRecord (loop : MainLoop σ κ β) (step : CommittedStep β) : ReplayPrefixEntry :=
  let evidence : VisibleDrawTransitionEvidence :=
    if loop.heldStableSnapshot.isSome then
      visibleDrawTransitionEvidence (publicPiles step.next.board) loop.replayPrefix
        (publicPiles loop.currentResult.board)
    else {}
  { semanticAction := step.planned.semanticAction
    expectedSignature := step.observed
    targetIndex := step.planned.targetIndex
    targetEnemyIndex := step.planned.targetEnemyIndex
    visibleDrawConstraints := evidence.constraints
    visibleDrawTrackingBlocked := evidence.blocksLaterPinning
    visibleDrawTrackingError := evidence.trackingError }

/-- Commit a step and compare it with the plan, which is discarded when the two
    differ. -/
def commit (loop : MainLoop σ κ β) (s : σ) (step : CommittedStep β) (rest : List PlannedStep) :
    MainLoop σ κ β :=
  { loop with
    session := s
    currentResult := step.next
    replayPrefix := loop.replayPrefix ++ [loop.transitionRecord publicPiles step]
    plannedSequence := if step.matchesPlan then rest else []
    log := loop.log ++ [.stepped step] }

end MainLoop

/-!
### The loop

A decision is taken, its plan is executed step by step, and an observation that does not
fit the plan discards the rest of it.
-/

section Loop

variable (session : CombatSession σ κ β) (publicPiles : β → PublicPiles) (env : MainLoopEnv κ β)

open MainLoop

/-- `_capture_stable`. -/
def captureStable (loop : MainLoop σ κ β) : MainLoop σ κ β × Except PyException Unit :=
  match session.captureSnapshot loop.session with
  | .error exc => (loop, .error exc)
  | .ok snapshot => (loop.hold snapshot, .ok ())

/-- The exceptions of a step that end the combat with a fault. Any other passes on. -/
def isMainCombatFault (exc : PyException) : Bool :=
  exc.typeName ∈ ["ActionExecutionError", "FaultedCombatSessionError", "QuiescentBoundaryViolation"]

/-- One step of the plan; nothing is given where the plan goes on. -/
def execStep (planned : PlannedStep) (rest : List PlannedStep) (loop : MainLoop σ κ β) :
    MainLoop σ κ β × Except PyException (Option ExecOutcome) :=
  match planned.semanticAction.resolve loop.currentResult.legalActions with
  | none => (loop.discard planned, .ok (some .goToBoundary))
  | some resolved =>
      match session.step loop.currentResult resolved planned.targetIndex planned.targetEnemyIndex
        loop.session with
      | (s, .error exc) =>
          let failed := { loop with session := s }.record (.stepFailed planned exc)
          if isMainCombatFault exc then
            ({ failed with plannedSequence := [] }, .ok (some (.fault exc)))
          else (failed, .error exc)
      | (s, .ok next) =>
          let step : CommittedStep β := ⟨planned, resolved, next⟩
          let committed := loop.commit publicPiles s step rest
          if ¬ step.matchesPlan then (committed, .ok (some .goToBoundary))
          else
            match boundaryOfBattleState next with
            | .terminal => (committed, .ok (some .goToBoundary))
            | .stable =>
                match captureStable session committed with
                | (loop, .error exc) => (loop, .error exc)
                | (loop, .ok ()) => (loop, .ok none)
            | .pending => (committed, .ok none)
            | .fault => (committed, .ok none)

/-- `_run_exec_loop`, over the planned sequence of the loop. -/
def execLoop : List PlannedStep → MainLoop σ κ β →
    MainLoop σ κ β × Except PyException ExecOutcome
  | [], loop => (loop, .ok .sequenceExhausted)
  | planned :: rest, loop =>
      match execStep session publicPiles planned rest loop with
      | (loop, .error exc) => (loop, .error exc)
      | (loop, .ok (some outcome)) => (loop, .ok outcome)
      | (loop, .ok none) => execLoop rest loop

/-- `build_main_decision_context`. -/
def buildMainDecisionContext (loop : MainLoop σ κ β) :
    Except PyException (DecisionContext κ β) :=
  match loop.heldStableSnapshot with
  | none => .error (.runtimeError
      "build_main_decision_context() called before any Held Stable Snapshot was captured")
  | some snapshot =>
      buildDecisionContextFromHeldStable snapshot loop.replayPrefix loop.currentResult

/-- `build_combat_start_decision_context`, with its guards. -/
def buildCombatStartContext (loop : MainLoop σ κ β) : Except PyException (DecisionContext κ β) :=
  match loop.heldStableSnapshot, loop.combatStartReplayRoot with
  | some _, _ => .error (.runtimeError
      ("build_combat_start_decision_context() called after a real Held Stable Snapshot " ++
        "already exists - use build_main_decision_context() instead"))
  | none, none => .error (.runtimeError
      "build_combat_start_decision_context() called without a Combat Start Replay Root")
  | none, some root =>
      buildCombatStartDecisionContext root loop.replayPrefix loop.currentResult

/-- A search: nothing is given where a plan was adopted. -/
def searchDecision (index : Nat) (isCombatStartPending : Bool) (loop : MainLoop σ κ β) :
    MainLoop σ κ β × Except PyException (Option (MainLoopOutcome β)) :=
  match env.searchStrategy with
  | none => (loop, .error (.runtimeError
      "routing_policy selected ROUTE_SEARCH but no search_strategy callable was provided"))
  | some searchStrategy =>
      match (if isCombatStartPending then buildCombatStartContext loop
        else buildMainDecisionContext loop) with
      | .error exc => (loop, .error exc)
      | .ok context =>
          let searched := loop.record (.searched context loop.currentResult loop.session)
          match searchStrategy index context with
          | .error exc => (searched, .error exc)
          | .ok (.evaluationFailure detail) => (searched, .ok (some (.aborted detail)))
          | .ok (.success plan) => (searched.adopt plan, .ok none)

/-- A decision of one step. -/
def selectDecision (selected : Except PyException PlannedStep) (loop : MainLoop σ κ β) :
    MainLoop σ κ β × Except PyException (Option (MainLoopOutcome β)) :=
  match selected with
  | .error exc => (loop, .error exc)
  | .ok step => (loop.adopt [step], .ok none)

/-- `NEW_DECISION`: what is done when nothing is planned. -/
def newDecision (index : Nat) (boundary : Boundary) (loop : MainLoop σ κ β) :
    MainLoop σ κ β × Except PyException (Option (MainLoopOutcome β)) :=
  match env.routingPolicy index boundary with
  | .error exc => (loop, .error exc)
  | .ok (.unknown text) => (loop, .error (.valueError
      ("routing_policy returned unknown route '" ++ text ++
        "' (known: ['direct', 'pending_static', 'search'])")))
  | .ok .direct => selectDecision (env.directSelector index loop.currentResult) loop
  | .ok .pendingStatic =>
      if boundary ≠ .pending then
        (loop, .error (.runtimeError
          "ROUTE_PENDING_STATIC is only a valid routing_policy answer at a Pending boundary"))
      else selectDecision (env.pendingSelector index loop.currentResult) loop
  | .ok .search =>
      let isCombatStartPending : Bool := boundary = .pending ∧ loop.heldStableSnapshot.isNone ∧
        loop.combatStartReplayRoot.isSome
      if boundary = .pending ∧ ¬ isCombatStartPending then
        (loop, .error ⟨"PendingSearchNotAllowedError",
          "routing_policy returned 'search' for a Pending boundary - " ++
            "Main-observed Pending must never route into Search/Worker fan-out " ++
            "(NOTE_PENDING_FUTURE, mermaid_combat_main_loop_detail.mermaid), " ++
            "EXCEPT a genuine Start-of-Combat Pending with a Combat Start Replay " ++
            "Root available - that requires held_stable_snapshot is None and " ++
            "combat_start_replay_root is not None, neither of which held here"⟩)
      else searchDecision env index isCombatStartPending loop

/-- Decide where nothing is planned, and execute the plan. -/
def planAndExecute (index : Nat) (boundary : Boundary) (loop : MainLoop σ κ β) :
    MainLoop σ κ β × Except PyException (Option (MainLoopOutcome β)) :=
  let decided :=
    if loop.plannedSequence = [] then newDecision env index boundary loop else (loop, .ok none)
  match decided with
  | (loop, .error exc) => (loop, .error exc)
  | (loop, .ok (some outcome)) => (loop, .ok (some outcome))
  | (loop, .ok none) =>
      match execLoop session publicPiles loop.plannedSequence loop with
      | (loop, .error exc) => (loop, .error exc)
      | (loop, .ok (.fault exc)) => (loop, .ok (some (.fault exc)))
      | (loop, .ok _) => (loop, .ok none)

/-- One iteration of the outer loop. -/
def iterate (index : Nat) (loop : MainLoop σ κ β) :
    MainLoop σ κ β × Except PyException (Option (MainLoopOutcome β)) :=
  match boundaryOfBattleState loop.currentResult with
  | .terminal => (loop, .ok (some (.terminal loop.currentResult)))
  | .stable =>
      match captureStable session loop with
      | (loop, .error exc) => (loop, .error exc)
      | (loop, .ok ()) => planAndExecute session publicPiles env index .stable loop
  | .pending => planAndExecute session publicPiles env index .pending loop
  | .fault => (loop, .error (.runtimeError "unexpected boundary 'fault' outside EXEC_LOOP"))

/-- The iterations that are left, from one on. -/
def runFrom : (left index : Nat) → MainLoop σ κ β →
    MainLoop σ κ β × Except PyException (MainLoopOutcome β)
  | 0, index, loop => (loop, .error (.runtimeError
      ("run_until_terminal_or_fault exceeded max_iterations=" ++ toString index ++
        " without terminating")))
  | left + 1, index, loop =>
      match iterate session publicPiles env index loop with
      | (loop, .error exc) => (loop, .error exc)
      | (loop, .ok (some outcome)) => (loop, .ok outcome)
      | (loop, .ok none) => runFrom left (index + 1) loop

/-- `run_until_terminal_or_fault`. -/
def runUntilTerminalOrFault (maxIterations : Nat) (loop : MainLoop σ κ β) :
    MainLoop σ κ β × Except PyException (MainLoopOutcome β) :=
  runFrom session publicPiles env maxIterations 0 loop

end Loop

/-!
### Moves

Everything the loop does to its state is one of a few moves; the rest of the development
looks at these and not at the loop.
-/

section Moves

variable (session : CombatSession σ κ β) (publicPiles : β → PublicPiles)

/-- What the current decision is replayed from. -/
def MainLoop.searchRoot (loop : MainLoop σ κ β) : Option (SearchRoot κ) :=
  match loop.heldStableSnapshot with
  | some snapshot => some (.snapshot snapshot)
  | none => loop.combatStartReplayRoot.map .combatStart

/-- What the loop can do and go on. -/
inductive Move : MainLoop σ κ β → MainLoop σ κ β → Prop where
  | captured (loop : MainLoop σ κ β) (snapshot : κ)
      (hstable : boundaryOfBattleState loop.currentResult = .stable)
      (hcapture : session.captureSnapshot loop.session = .ok snapshot) :
      Move loop (loop.hold snapshot)
  | searched (loop : MainLoop σ κ β) (root : SearchRoot κ) (context : DecisionContext κ β)
      (hidle : loop.plannedSequence = []) (hroot : loop.searchRoot = some root)
      (hcontext : buildDecisionContext root loop.replayPrefix loop.currentResult = .ok context) :
      Move loop (loop.record (.searched context loop.currentResult loop.session))
  | planned (loop : MainLoop σ κ β) (plan : List PlannedStep)
      (hidle : loop.plannedSequence = []) : Move loop (loop.adopt plan)
  | unresolved (loop : MainLoop σ κ β) (planned : PlannedStep) (rest : List PlannedStep)
      (hplan : loop.plannedSequence = planned :: rest) : Move loop (loop.discard planned)
  | stepped (loop : MainLoop σ κ β) (planned : PlannedStep) (rest : List PlannedStep)
      (resolved : LegalAction) (s : σ) (next : BattleState β)
      (hplan : loop.plannedSequence = planned :: rest)
      (hresolved : planned.semanticAction.resolve loop.currentResult.legalActions = some resolved)
      (hstep : session.step loop.currentResult resolved planned.targetIndex
        planned.targetEnemyIndex loop.session = (s, .ok next)) :
      Move loop (loop.commit publicPiles s ⟨planned, resolved, next⟩ rest)

/-- What the loop can do and end: a step fails. -/
def Fails (loop final : MainLoop σ κ β) : Prop :=
  ∃ planned rest exc, loop.plannedSequence = planned :: rest ∧
    final.log = loop.log ++ [.stepFailed planned exc] ∧ final.replayPrefix = loop.replayPrefix ∧
    final.heldStableSnapshot = loop.heldStableSnapshot

/-- Moves lead to the state, or to a step that fails with it, where the loop does
    not go on. -/
def Follows (loop final : MainLoop σ κ β) (goesOn : Prop) : Prop :=
  Relation.ReflTransGen (Move session publicPiles) loop final ∨
    ¬ goesOn ∧ ∃ last, Relation.ReflTransGen (Move session publicPiles) loop last ∧
      Fails last final

variable {session publicPiles}

theorem Follows.of_moves {loop final : MainLoop σ κ β} {goesOn : Prop}
    (h : Relation.ReflTransGen (Move session publicPiles) loop final) :
    Follows session publicPiles loop final goesOn :=
  .inl h

/-- Where the loop goes on, the rest follows. -/
theorem Follows.trans {loop next final : MainLoop σ κ β} {goesOn : Prop}
    (h : Relation.ReflTransGen (Move session publicPiles) loop next)
    (hrest : Follows session publicPiles next final goesOn) :
    Follows session publicPiles loop final goesOn := by
  rcases hrest with hmoves | ⟨hstop, last, hmoves, hfails⟩
  · exact .inl (h.trans hmoves)
  · exact .inr ⟨hstop, last, h.trans hmoves, hfails⟩

theorem Follows.moves {loop final : MainLoop σ κ β} {goesOn : Prop}
    (h : Follows session publicPiles loop final goesOn) (hgoesOn : goesOn) :
    Relation.ReflTransGen (Move session publicPiles) loop final := by
  rcases h with hmoves | ⟨hstop, _⟩
  · exact hmoves
  · exact absurd hgoesOn hstop

/-- A run that ends does not go on. -/
theorem Follows.stop {loop final : MainLoop σ κ β} {goesOn goesOn' : Prop}
    (h : Follows session publicPiles loop final goesOn) (hstop : ¬ goesOn') :
    Follows session publicPiles loop final goesOn' := by
  rcases h with hmoves | ⟨_, hfails⟩
  · exact .inl hmoves
  · exact .inr ⟨hstop, hfails⟩

variable (publicPiles) in
theorem captureStable_moves {loop final : MainLoop σ κ β} {result : Except PyException Unit}
    (hstable : boundaryOfBattleState loop.currentResult = .stable)
    (h : captureStable session loop = (final, result)) :
    Relation.ReflTransGen (Move session publicPiles) loop final ∧
      final.plannedSequence = loop.plannedSequence := by
  unfold captureStable at h
  split at h
  · cases h
    exact ⟨.refl, rfl⟩
  · rename_i snapshot hcapture
    cases h
    exact ⟨.single (.captured loop snapshot hstable hcapture), rfl⟩

/-- A plan goes on, or is left, without a fault. -/
def ExecGoesOn (result : Except PyException (Option ExecOutcome)) : Prop :=
  ∃ outcome, result = .ok outcome ∧ ∀ exc, outcome ≠ some (.fault exc)

theorem not_execGoesOn_error (exc : PyException) : ¬ ExecGoesOn (.error exc) := by
  rintro ⟨outcome, houtcome, _⟩
  cases houtcome

theorem not_execGoesOn_fault (exc : PyException) : ¬ ExecGoesOn (.ok (some (.fault exc))) := by
  rintro ⟨outcome, houtcome, hfault⟩
  cases houtcome
  exact hfault exc rfl

-- Each branch of the step is one move, or a step that fails.
/-- What a step of the plan does. -/
theorem execStep_follows {planned : PlannedStep} {rest : List PlannedStep}
    {loop final : MainLoop σ κ β} {result : Except PyException (Option ExecOutcome)}
    (hplan : loop.plannedSequence = planned :: rest)
    (h : execStep session publicPiles planned rest loop = (final, result)) :
    Follows session publicPiles loop final (ExecGoesOn result) ∧
      (result = .ok none → final.plannedSequence = rest) := by
  unfold execStep at h
  -- The planned action is not on offer, and the plan is given up.
  split at h
  · cases h
    exact ⟨.of_moves (.single (.unresolved loop planned rest hplan)), fun h => by cases h⟩
  · rename_i resolved hresolved
    split at h
    -- The game did not take the step; whether that is a fault of the main combat decides what
    -- follows.
    · rename_i s exc hstep
      dsimp only at h
      by_cases hfault : isMainCombatFault exc = true
      · rw [if_pos hfault] at h
        cases h
        exact ⟨.inr ⟨not_execGoesOn_fault exc, loop, .refl, planned, rest, exc, hplan,
          rfl, rfl, rfl⟩,
          fun h => by cases h⟩
      · rw [if_neg hfault] at h
        cases h
        exact ⟨.inr ⟨not_execGoesOn_error exc, loop, .refl, planned, rest, exc, hplan,
          rfl, rfl, rfl⟩,
          fun h => by cases h⟩
    -- The step was taken and is logged, whether or not it went as planned.
    · rename_i s next hstep
      have hmove : Move session publicPiles loop
          (loop.commit publicPiles s ⟨planned, resolved, next⟩ rest) :=
        .stepped loop planned rest resolved s next hplan hresolved hstep
      have hmoves := Relation.ReflTransGen.single hmove
      dsimp only at h
      -- It went as planned: at a stable boundary the board is captured, elsewhere the loop goes
      -- on.
      by_cases hmatches : CommittedStep.matchesPlan ⟨planned, resolved, next⟩ = true
      · have hrest : (loop.commit publicPiles s ⟨planned, resolved, next⟩ rest).plannedSequence =
            rest := if_pos hmatches
        rw [if_neg (not_not.mpr hmatches)] at h
        split at h
        · cases h
          exact ⟨.of_moves hmoves, fun h => by cases h⟩
        · rename_i hstable
          split at h
          · rename_i captured exc hcapture
            cases h
            have hcaptured := captureStable_moves publicPiles hstable hcapture
            exact ⟨.of_moves (hmoves.trans hcaptured.1), fun h => by cases h⟩
          · rename_i captured hcapture
            cases h
            have hcaptured := captureStable_moves publicPiles hstable hcapture
            exact ⟨.of_moves (hmoves.trans hcaptured.1), fun _ => hcaptured.2.trans hrest⟩
        · cases h
          exact ⟨.of_moves hmoves, fun _ => hrest⟩
        · cases h
          exact ⟨.of_moves hmoves, fun _ => hrest⟩
      -- It did not go as planned, and the plan ends here.
      · rw [if_pos hmatches] at h
        cases h
        exact ⟨.of_moves hmoves, fun h => by cases h⟩

/-- What the execution of a plan does. -/
theorem execLoop_follows (plan : List PlannedStep) :
    ∀ {loop final : MainLoop σ κ β} {result : Except PyException ExecOutcome},
      loop.plannedSequence = plan → execLoop session publicPiles plan loop = (final, result) →
      Follows session publicPiles loop final (ExecGoesOn (result.map some)) := by
  induction plan with
  | nil =>
      intro loop final result _ h
      cases h
      exact .of_moves .refl
  | cons planned rest ih =>
      intro loop final result hplan h
      unfold execLoop at h
      split at h
      · rename_i next exc hstep
        cases h
        exact (execStep_follows hplan hstep).1
      · rename_i next outcome hstep
        cases h
        exact (execStep_follows hplan hstep).1
      · rename_i next hstep
        have hfollows := execStep_follows hplan hstep
        have hmoves := hfollows.1.moves ⟨none, rfl, fun exc heq => by cases heq⟩
        exact .trans hmoves (ih (hfollows.2 rfl) h)

/-!
### Decisions

A new decision is searched at the state the loop holds, and what it commits to are its own
moves.
-/

section Decision

variable {env : MainLoopEnv κ β}

theorem buildMainDecisionContext_root {loop : MainLoop σ κ β} {context : DecisionContext κ β}
    (h : buildMainDecisionContext loop = .ok context) : ∃ root, loop.searchRoot = some root ∧
      buildDecisionContext root loop.replayPrefix loop.currentResult = .ok context := by
  unfold buildMainDecisionContext at h
  split at h
  · cases h
  · rename_i snapshot hheld
    refine ⟨.snapshot snapshot, ?_, h⟩
    unfold MainLoop.searchRoot
    rw [hheld]

theorem buildCombatStartContext_root {loop : MainLoop σ κ β} {context : DecisionContext κ β}
    (h : buildCombatStartContext loop = .ok context) : ∃ root, loop.searchRoot = some root ∧
      buildDecisionContext root loop.replayPrefix loop.currentResult = .ok context := by
  unfold buildCombatStartContext at h
  split at h
  · cases h
  · cases h
  · rename_i root hheld hroot
    refine ⟨.combatStart root, ?_, h⟩
    unfold MainLoop.searchRoot
    rw [hheld, hroot]
    rfl

/-- A search leaves a plan or stops the loop. -/
theorem searchDecision_moves {index : Nat} {isCombatStartPending : Bool}
    {loop final : MainLoop σ κ β} {result : Except PyException (Option (MainLoopOutcome β))}
    (hidle : loop.plannedSequence = [])
    (h : searchDecision env index isCombatStartPending loop = (final, result)) :
    Relation.ReflTransGen (Move session publicPiles) loop final := by
  unfold searchDecision at h
  -- Without a context there is no search, and nothing was done.
  split at h
  · cases h
    exact .refl
  · split at h
    · cases h
      exact .refl
    · rename_i context hcontext
      -- The context was built from the root that the loop holds, on either path.
      have hroot : ∃ root, loop.searchRoot = some root ∧
          buildDecisionContext root loop.replayPrefix loop.currentResult = .ok context := by
        by_cases hstart : isCombatStartPending = true
        · rw [if_pos hstart] at hcontext
          exact buildCombatStartContext_root hcontext
        · rw [if_neg hstart] at hcontext
          exact buildMainDecisionContext_root hcontext
      rcases hroot with ⟨root, hsearchRoot, hbuilt⟩
      have hsearched := Relation.ReflTransGen.single (r := Move session publicPiles)
        (.searched loop root context hidle hsearchRoot hbuilt)
      dsimp only at h
      -- The search is logged, and its plan taken over if it has one.
      split at h
      · cases h
        exact hsearched
      · cases h
        exact hsearched
      · rename_i plan _
        cases h
        exact hsearched.tail (.planned _ plan hidle)

theorem selectDecision_moves {selected : Except PyException PlannedStep}
    {loop final : MainLoop σ κ β} {result : Except PyException (Option (MainLoopOutcome β))}
    (hidle : loop.plannedSequence = []) (h : selectDecision selected loop = (final, result)) :
    Relation.ReflTransGen (Move session publicPiles) loop final := by
  unfold selectDecision at h
  split at h
  · cases h
    exact .refl
  · rename_i step
    cases h
    exact .single (.planned loop [step] hidle)

/-- A new decision is a search, after the loop took the state in. -/
theorem newDecision_moves {index : Nat} {boundary : Boundary} {loop final : MainLoop σ κ β}
    {result : Except PyException (Option (MainLoopOutcome β))}
    (hidle : loop.plannedSequence = [])
    (h : newDecision env index boundary loop = (final, result)) :
    Relation.ReflTransGen (Move session publicPiles) loop final := by
  unfold newDecision at h
  split at h
  · cases h
    exact .refl
  · cases h
    exact .refl
  · exact selectDecision_moves hidle h
  · split at h
    · cases h
      exact .refl
    · exact selectDecision_moves hidle h
  · dsimp only at h
    split at h
    · cases h
      exact .refl
    · exact searchDecision_moves hidle h

/-- What an iteration does once its boundary has been dealt with. -/
theorem planAndExecute_follows {index : Nat} {boundary : Boundary} {loop final : MainLoop σ κ β}
    {result : Except PyException (Option (MainLoopOutcome β))}
    (h : planAndExecute session publicPiles env index boundary loop = (final, result)) :
    Follows session publicPiles loop final (result = .ok none) := by
  -- A plan is kept while there is one, and decided on when there is none.
  have hdecided : ∀ {next : MainLoop σ κ β}
      {decided : Except PyException (Option (MainLoopOutcome β))},
      (if loop.plannedSequence = [] then newDecision env index boundary loop
        else (loop, .ok none)) = (next, decided) →
      Relation.ReflTransGen (Move session publicPiles) loop next := by
    intro next decided hdecided
    by_cases hidle : loop.plannedSequence = []
    · rw [if_pos hidle] at hdecided
      exact newDecision_moves hidle hdecided
    · rw [if_neg hidle] at hdecided
      cases hdecided
      exact .refl
  unfold planAndExecute at h
  dsimp only at h
  -- No decision, an end without one, or a plan that is executed next.
  split at h
  · rename_i next exc hnext
    cases h
    exact .of_moves (hdecided hnext)
  · rename_i next outcome hnext
    cases h
    exact .of_moves (hdecided hnext)
  · rename_i next hnext
    have hmoves := hdecided hnext
    -- Whatever ended the execution, its moves come after those of the decision.
    split at h
    · rename_i last exc hexec
      cases h
      exact .trans hmoves ((execLoop_follows _ rfl hexec).stop fun heq => by cases heq)
    · rename_i last exc hexec
      cases h
      exact .trans hmoves ((execLoop_follows _ rfl hexec).stop fun heq => by cases heq)
    · rename_i last outcome hfault hexec
      cases h
      refine .of_moves (hmoves.trans ((execLoop_follows _ rfl hexec).moves ⟨some outcome, rfl, ?_⟩))
      intro exc heq
      cases heq
      exact hfault exc rfl

/-- One iteration is a list of moves. -/
theorem iterate_follows {index : Nat} {loop final : MainLoop σ κ β}
    {result : Except PyException (Option (MainLoopOutcome β))}
    (h : iterate session publicPiles env index loop = (final, result)) :
    Follows session publicPiles loop final (result = .ok none) := by
  unfold iterate at h
  split at h
  · cases h
    exact .of_moves .refl
  · rename_i hstable
    split at h
    · rename_i next exc hcapture
      cases h
      exact .of_moves (captureStable_moves publicPiles hstable hcapture).1
    · rename_i next hcapture
      exact .trans (captureStable_moves publicPiles hstable hcapture).1 (planAndExecute_follows h)
  · exact planAndExecute_follows h
  · cases h
    exact .of_moves .refl

/-- A run is a sequence of moves, at the end of which one step may fail. -/
theorem runFrom_follows (left : Nat) : ∀ (index : Nat) (loop : MainLoop σ κ β),
    Follows session publicPiles loop (runFrom session publicPiles env left index loop).1 False := by
  induction left with
  | zero =>
      intro index loop
      exact .of_moves .refl
  | succ left ih =>
      intro index loop
      unfold runFrom
      split
      · rename_i next exc hiterate
        exact (iterate_follows hiterate).stop not_false
      · rename_i next outcome hiterate
        exact (iterate_follows hiterate).stop not_false
      · rename_i next hiterate
        exact .trans ((iterate_follows hiterate).moves rfl) (ih (index + 1) next)

theorem runUntilTerminalOrFault_follows (maxIterations : Nat) (loop : MainLoop σ κ β) :
    Follows session publicPiles loop
      (runUntilTerminalOrFault session publicPiles env maxIterations loop).1 False :=
  runFrom_follows maxIterations 0 loop

end Decision

end Moves

end Combat

end STS2RL
