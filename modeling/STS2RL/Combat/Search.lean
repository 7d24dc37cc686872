import STS2RL.Combat.Aggregation
import STS2RL.Combat.RetryLoop

/-!
# Search Strategies

The two strategies that plan a combat decision. `searchStrategy` evaluates the
candidates of the decision once and commits to the best. `beamSearchStrategy`
goes on from the best results for a bounded number of rounds and commits to the
best path. The two share the candidate pipeline, the construction of work items,
the retry loop and the aggregation; each has its own way from there to a plan.

What a strategy finds outside itself is `SearchEnv`: the candidates of a
decision, the contexts of its hypotheses, the worker pool, the loader of
captured states, and the main process as the invariant check sees it. Nothing is
assumed of any of it. The pool may answer differently at every dispatch, so it
is indexed by the round and the beam it is asked for.

A plan path is kept as planned steps: the path of a round under hypotheses ends
in a step without an expected signature.

## Main definitions

* `SearchEnv`, `SearchConfig`: What a strategy finds, and how it is tuned.
* `requiresHypothesis`: Whether a batch is evaluated under hypotheses.
* `searchStrategy`: One evaluation.
* `beamSearchStrategy`: Bounded continuation from the best results.
-/

namespace STS2RL

namespace Combat

variable {κ β : Type}

/-- What the pipeline leaves of the candidates. -/
inductive CandidatePipelineResult where
  | success (continuation : PipelineCandidateRef) (subBranches : List PipelineCandidateRef)
  | noViable (detail : String)

/-- The main process when the invariant is checked. -/
structure MainLoopState (κ β : Type) where
  currentResult : BattleState β
  heldStableSnapshot : Option κ
  replayPrefix : List ReplayPrefixEntry

/-- What a strategy finds outside itself. -/
structure SearchEnv (κ β : Type) where
  digests : Digests κ
  pipeline : DecisionContext κ β → CandidatePipelineResult
  hypothesisContexts : DecisionContext κ β → Except PyException (List (DecisionContext κ β))
  evaluator : (round beam : Nat) → Dispatch κ β
  loadState : (round survivor : Nat) → κ → Except PyException (BattleState β)
  mainState : Option (MainLoopState κ β)

/-- The tunables a strategy reads. -/
structure SearchConfig where
  minCoverageFraction : ℚ := 1 / 2
  maxRetries : Int := 1

/-- The tunables of the beam strategy. -/
structure BeamSearchConfig where
  coordinator : SearchConfig := {}
  beamWidth : Nat := 2
  maxRounds : Nat := 2
  beamWidth_pos : 0 < beamWidth := by decide
  maxRounds_pos : 0 < maxRounds := by decide

/-- What a search comes to. -/
inductive SearchResult where
  | success (plannedSequence : List PlannedStep)
  | evaluationFailure (detail : String)
  deriving DecidableEq

section Batch

/-- `_candidate_batch`. -/
def candidateBatch (continuation : PipelineCandidateRef)
    (subBranches : List PipelineCandidateRef) : List PipelineCandidateRef :=
  continuation :: subBranches

/-- `_candidate_action_type`. -/
def candidateActionType (candidate : PipelineCandidateRef) : String :=
  if candidate.choiceKind ≠ "" then candidate.choiceKind else candidate.semanticAction.actionType

/-- Whether `_candidate_card_id` finds a card. -/
def bindsCard (candidate : PipelineCandidateRef) : Bool :=
  candidate.semanticAction.actionType ∈ ["card", "choice_card", "choice_reward_card"] ∧
    candidate.semanticAction.semanticKey ≠ ""

/-- `consume_check(candidate, context).requires_hypothesis`. -/
def consumeCheck (candidate : PipelineCandidateRef) (context : DecisionContext κ β) : Bool :=
  if context.replayPrefix ≠ [] ∧ context.searchHypothesisId.isSome then true
  else if candidateActionType candidate ∈ ["system", "choice_confirm", "choice_skip"] ∧
      ¬ bindsCard candidate then false
  else true

/-- `_requires_hypothesis`: one mode for the whole batch. -/
def requiresHypothesis (context : DecisionContext κ β)
    (candidates : List PipelineCandidateRef) : Bool :=
  candidates.any fun candidate => consumeCheck candidate context

variable (env : SearchEnv κ β) (config : SearchConfig)

/-- The work items of a batch under hypotheses. -/
def hypothesisBatch (context : DecisionContext κ β) (candidates : List PipelineCandidateRef) :
    Except PyException (List (WorkItem κ β)) := do
  let contexts ← env.hypothesisContexts context
  hypothesisWorkItems env.digests contexts candidates

/-- The final entries of a batch. -/
def finalResults (round beam : Nat) (items : List (WorkItem κ β)) :
    Except PyException (List (FinalEntry κ β)) := do
  let (entries, _) ← dispatchUntilFinal (env.evaluator round beam) config.maxRetries items
  pure entries

/-- The log of a batch. -/
def logEntries (digests : Digests κ) (finals : List (FinalEntry κ β)) :
    Except PyException (List BranchDecisionLogEntry) :=
  finals.mapM fun final => toDecisionLogEntry digests final.item final.result final.state

end Batch

section Invariant

/-- `_live_state_identity`. -/
def liveStateIdentity (state : MainLoopState κ β) : Option String × Int :=
  match state.currentResult.decisionFrame with
  | none => (none, -1)
  | some frame => (frame.combatSessionId, frame.stepIndex)

/-- `_check_main_invariant`: what of the main process no longer matches. -/
def mainInvariantMismatches (digests : Digests κ) (original : DecisionContext κ β)
    (live : MainLoopState κ β) : List String :=
  let expected := original.currentContextSignature
  let snapshotDigest (root : SearchRoot κ) : String :=
    digests.sha256Hex (root.identityPayload digests.canonicalSnapshot)
  let identity := if liveStateIdentity live ≠ (expected.combatSessionId, expected.stepIndex) then
    ["state_identity"] else []
  let held :=
    if original.rootSnapshot.isCombatStart then
      if live.heldStableSnapshot.isSome then ["held_snapshot"] else []
    else
      match live.heldStableSnapshot with
      | none => ["held_snapshot"]
      | some snapshot =>
          if snapshotDigest (.snapshot snapshot) ≠ snapshotDigest original.rootSnapshot then
            ["held_snapshot"] else []
  let replay := if live.replayPrefix ≠ original.replayPrefix then ["replay_prefix"] else []
  identity ++ held ++ replay

/-- Whether a commit may go ahead. Without a main process to ask it may. -/
def mainInvariantOk (env : SearchEnv κ β) (original : DecisionContext κ β) : Bool :=
  match env.mainState with
  | none => true
  | some live => (mainInvariantMismatches env.digests original live).isEmpty

/-- A `MainInvariantViolatedError`. -/
def mainInvariantViolated (detail : String) : PyException :=
  ⟨"MainInvariantViolatedError", detail⟩

end Invariant

/-- What the strategy makes of a commit decision: a changed main process raises. -/
def concludeSearch : CommitDecision → Except PyException SearchResult
  | .success plan => pure (.success plan)
  | .evaluationFailure detail => pure (.evaluationFailure detail)
  | .mainFault detail => .error (mainInvariantViolated detail)

variable (env : SearchEnv κ β) (config : SearchConfig)

/-- The strategy of `build_search_strategy`. -/
def searchStrategy (context : DecisionContext κ β) : Except PyException SearchResult :=
  match env.pipeline context with
  | .noViable detail => pure (.evaluationFailure detail)
  | .success continuation subBranches => do
      let candidates := candidateBatch continuation subBranches
      let hypothesisInvolved := requiresHypothesis context candidates
      let items ← if hypothesisInvolved then hypothesisBatch env context candidates
        else plainWorkItems env.digests context candidates
      let finals ← finalResults env config 0 0 items
      let entries ← logEntries env.digests finals
      let aggregation ← if hypothesisInvolved then
          aggregateHypothesisResults config.minCoverageFraction entries
        else aggregatePlainResults entries
      let decision ← buildCommitDecision aggregation hypothesisInvolved
        (mainInvariantOk env context)
      concludeSearch decision

/-- A board that the search goes on from. -/
structure BeamEntry (κ β : Type) where
  context : DecisionContext κ β
  cumulativeScore : ℚ
  sortKey : List String

/-- A plan that is not continued, and why. -/
structure CompletedBeam where
  planPath : List PlannedStep
  cumulativeScore : ℚ
  sortKey : List String
  reason : String

/-- A step from a board, with what its branch found. -/
structure ExpansionCandidate (κ β : Type) where
  parent : BeamEntry κ β
  branchResult : BranchResult κ β
  entry : ReplayPrefixEntry
  roundScore : ℚ
  rootActionKey : String

namespace ExpansionCandidate

/-- The steps up to and including this one. -/
def planPath (expansion : ExpansionCandidate κ β) : List ReplayPrefixEntry :=
  expansion.parent.context.planPath ++ [expansion.entry]

/-- The score of the steps, added up. -/
def cumulativeScore (expansion : ExpansionCandidate κ β) : ℚ :=
  expansion.parent.cumulativeScore + expansion.roundScore

/-- What settles ties: the actions of the path. -/
def sortKey (expansion : ExpansionCandidate κ β) : List String :=
  expansion.parent.sortKey ++ [expansion.rootActionKey]

end ExpansionCandidate

/-- `_planned_sequence_from_path`, for one entry. -/
def plannedStep (entry : ReplayPrefixEntry) : PlannedStep :=
  { semanticAction := entry.semanticAction
    targetIndex := entry.targetIndex
    targetEnemyIndex := entry.targetEnemyIndex
    expectedSignature := some entry.expectedSignature }

/-- Better score first, then the shorter path, then the smaller keys. -/
def rankLe (score score' : ℚ) (length length' : Nat) (key key' : List String) : Bool :=
  decide (score' < score ∨ score = score' ∧
    (length < length' ∨ length = length' ∧ key ≤ key'))

/-- The order of plans, best first. -/
def completedLe (a b : CompletedBeam) : Bool :=
  rankLe a.cumulativeScore b.cumulativeScore a.planPath.length b.planPath.length a.sortKey b.sortKey

/-- The order of steps, best first. -/
def expansionLe (a b : ExpansionCandidate κ β) : Bool :=
  rankLe a.cumulativeScore b.cumulativeScore a.planPath.length b.planPath.length a.sortKey b.sortKey

/-- A beam that ends where it stands. -/
def BeamEntry.complete (beam : BeamEntry κ β) (reason : String) : CompletedBeam :=
  { planPath := beam.context.planPath.map plannedStep
    cumulativeScore := beam.cumulativeScore
    sortKey := beam.sortKey
    reason }

/-- `_completed_from_expansion`. -/
def ExpansionCandidate.complete (expansion : ExpansionCandidate κ β) (reason : String) :
    CompletedBeam :=
  { planPath := expansion.planPath.map plannedStep
    cumulativeScore := expansion.cumulativeScore
    sortKey := expansion.sortKey
    reason }

/-- What the decision of a round under hypotheses makes of a beam. A round
    without a viable root action ends the beam where it stands. -/
def completeHypothesisRound (beam : BeamEntry κ β) (decision : CommitDecision)
    (best : Option RootActionAggregation) : Except PyException CompletedBeam :=
  match decision, best with
  | .success (step :: _), some best =>
      .ok
        { planPath := beam.context.planPath.map plannedStep ++ [step]
          cumulativeScore := beam.cumulativeScore + best.aggregateScore
          sortKey := beam.sortKey ++ [best.rootActionKey]
          reason := "hypothesis_required" }
  | .evaluationFailure _, _ => .ok (beam.complete "hypothesis_zero_viable")
  | .mainFault _, _ =>
      .error (.runtimeError "unexpected Main invariant outcome from local hypothesis commit")
  | .success _, _ => .error ⟨"AssertionError", ""⟩

/-- `_completed_hypothesis_round`. -/
def completedHypothesisRound (round index : Nat) (beam : BeamEntry κ β)
    (candidates : List PipelineCandidateRef) : Except PyException CompletedBeam := do
  let items ← hypothesisBatch env beam.context candidates
  let finals ← finalResults env config round index items
  let entries ← logEntries env.digests finals
  let aggregation ← aggregateHypothesisResults config.minCoverageFraction entries
  let decision ← buildCommitDecision aggregation true true
  completeHypothesisRound beam decision aggregation.bestAction

/-- `_entry_from_branch`. -/
def entryFromBranch (candidate : PipelineCandidateRef) (signature : Option DecisionSignature) :
    Except PyException ReplayPrefixEntry :=
  match signature with
  | none => .error (.valueError "cannot build a ReplayPrefixEntry without a result signature")
  | some signature => .ok
      { semanticAction := candidate.semanticAction
        expectedSignature := signature
        targetIndex := candidate.targetIndex
        targetEnemyIndex := candidate.targetEnemyIndex }

/-- The expansion by one viable action, with the branch and the candidate looked
    up by work id; nothing where the branch did not succeed. -/
def expansionOf (beam : BeamEntry κ β) (branchByWorkId : Dict String (BranchResult κ β))
    (candidateByWorkId : Dict String PipelineCandidateRef) (action : RootActionAggregation) :
    Except PyException (Option (ExpansionCandidate κ β)) :=
  let workId := action.representativeEntry.workId
  match branchByWorkId.get? workId, candidateByWorkId.get? workId with
  | some branch, some candidate =>
      if branch.status ≠ .success then pure none
      else do
        let entry ← entryFromBranch candidate branch.resultSignature
        pure (some
          { parent := beam
            branchResult := branch
            entry
            roundScore := action.aggregateScore
            rootActionKey := action.rootActionKey })
  | _, _ => .error ⟨"KeyError", workId⟩

/-- `_plain_round_expansions`. -/
def plainRoundExpansions (round index : Nat) (beam : BeamEntry κ β)
    (candidates : List PipelineCandidateRef) :
    Except PyException (List (ExpansionCandidate κ β)) := do
  let items ← plainWorkItems env.digests beam.context candidates
  let finals ← finalResults env config round index items
  let branchByWorkId := Dict.empty.setAll
    (finals.map fun final => (final.item.workId, final.result))
  let candidateByWorkId := Dict.empty.setAll
    (finals.map fun final => (final.item.workId, final.item.candidate))
  let entries ← logEntries env.digests finals
  let aggregation ← aggregatePlainResults entries
  let expansions ← aggregation.viableActions.mapM
    (expansionOf beam branchByWorkId candidateByWorkId)
  pure (expansions.filterMap id)

/-- What the beams of a round came to. -/
structure RoundOutcome (κ β : Type) where
  expansions : List (ExpansionCandidate κ β) := []
  completed : List CompletedBeam := []
  producedAnyViable : Bool

/-- One active beam of a round. -/
def expandBeam (round index : Nat) (outcome : RoundOutcome κ β) (beam : BeamEntry κ β) :
    Except PyException (RoundOutcome κ β) :=
  match env.pipeline beam.context with
  | .noViable _ =>
      if round = 0 ∧ ¬ outcome.producedAnyViable then pure outcome
      else pure { outcome with
        completed := outcome.completed ++ [beam.complete "no_viable_candidates"] }
  | .success continuation subBranches =>
      let candidates := candidateBatch continuation subBranches
      if requiresHypothesis beam.context candidates then do
        let completed ← completedHypothesisRound env config round index beam candidates
        pure { outcome with
          completed := outcome.completed ++ [completed]
          producedAnyViable := true }
      else do
        let expansions ← plainRoundExpansions env config round index beam candidates
        if expansions ≠ [] then
          pure { outcome with
            expansions := outcome.expansions ++ expansions
            producedAnyViable := true }
        else if 0 < round then
          pure { outcome with
            completed := outcome.completed ++ [beam.complete "zero_successful_plain_results"] }
        else pure outcome

/-- The active beams of a round, in order. -/
def expandBeams (round : Nat) : Nat → RoundOutcome κ β → List (BeamEntry κ β) →
    Except PyException (RoundOutcome κ β)
  | _, outcome, [] => pure outcome
  | index, outcome, beam :: rest => do
      let outcome ← expandBeam env config round index outcome beam
      expandBeams round (index + 1) outcome rest

/-- What becomes of a survivor: it is complete, or active in the next round. -/
def settleSurvivor (round : Nat) (lastRound : Bool) (index : Nat)
    (survivor : ExpansionCandidate κ β) : Except PyException (CompletedBeam ⊕ BeamEntry κ β) :=
  match survivor.branchResult.resultSignature with
  | none => .error (.valueError "successful expansion did not carry result_signature")
  | some signature =>
      match signature.boundary, survivor.branchResult.childSnapshot with
      | .terminal, _ => pure (.inl (survivor.complete "terminal_boundary"))
      | .pending, _ =>
          if lastRound then pure (.inl (survivor.complete "max_rounds"))
          else
            match survivor.branchResult.pendingDecisionContext with
            | none =>
                .error (.valueError "Pending expansion did not carry pending_decision_context")
            | some context => pure (.inr
                { context := { context with planPath := survivor.planPath }
                  cumulativeScore := survivor.cumulativeScore
                  sortKey := survivor.sortKey })
      | .stable, some snapshot =>
          if lastRound then pure (.inl (survivor.complete "max_rounds"))
          else do
            let state ← env.loadState round index snapshot
            pure (.inr
              { context := { DecisionContext.fromRoot (.snapshot snapshot) state signature with
                  planPath := survivor.planPath }
                cumulativeScore := survivor.cumulativeScore
                sortKey := survivor.sortKey })
      | _, _ => pure (.inl (survivor.complete "non_stable_boundary"))

/-- The survivors are settled in order, completed plans apart from boards to go on from. -/
def settleSurvivors (round : Nat) (lastRound : Bool) : Nat → List (ExpansionCandidate κ β) →
    Except PyException (List CompletedBeam × List (BeamEntry κ β))
  | _, [] => pure ([], [])
  | index, survivor :: rest => do
      let settled ← settleSurvivor env round lastRound index survivor
      let (completed, active) ← settleSurvivors round lastRound (index + 1) rest
      match settled with
      | .inl beam => pure (beam :: completed, active)
      | .inr beam => pure (completed, beam :: active)

/-- The beams when the rounds are over. -/
structure BeamState (κ β : Type) where
  active : List (BeamEntry κ β)
  completed : List CompletedBeam := []
  producedAnyViable : Bool := false

/-- The rounds, with `left` of them to go. -/
def beamRounds (beamWidth : Nat) : (left round : Nat) → BeamState κ β →
    Except PyException (BeamState κ β)
  | 0, _, state => pure state
  | left + 1, round, state => do
      let outcome ← expandBeams env config round 0
        { producedAnyViable := state.producedAnyViable } state.active
      let completed := state.completed ++ outcome.completed
      if outcome.expansions = [] then
        pure { state with completed, producedAnyViable := outcome.producedAnyViable }
      else
        let survivors := (outcome.expansions.mergeSort expansionLe).take beamWidth
        let (settled, active) ← settleSurvivors env round (left = 0) 0 survivors
        let state : BeamState κ β :=
          { active
            completed := completed ++ settled
            producedAnyViable := outcome.producedAnyViable }
        if active = [] then pure state else beamRounds beamWidth left (round + 1) state

/-- The plan of the best completed beam. -/
def commitBeams (original : DecisionContext κ β) (state : BeamState κ β) :
    Except PyException SearchResult :=
  if ¬ state.producedAnyViable then
    pure (.evaluationFailure "search evaluation produced zero viable Root Actions")
  else
    let completed := state.completed ++
      (state.active.filter fun beam => beam.context.planPath ≠ []).map
        (·.complete "exhausted_active")
    match (completed.mergeSort completedLe).head? with
    | none => pure (.evaluationFailure "search evaluation produced zero completed beam entries")
    | some best =>
        if ¬ mainInvariantOk env original then
          .error (mainInvariantViolated
            "Main state identity changed during multi-round search aggregation")
        else pure (.success best.planPath)

/-- The strategy of `build_beam_search_strategy`. -/
def beamSearchStrategy (config : BeamSearchConfig) (context : DecisionContext κ β) :
    Except PyException SearchResult := do
  let state ← beamRounds env config.coordinator config.beamWidth config.maxRounds 0
    { active := [{ context, cumulativeScore := 0, sortKey := [] }] }
  commitBeams env context state

end Combat

end STS2RL
