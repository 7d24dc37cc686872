import STS2RL.Core.Forall2
import STS2RL.Combat.RetryLaw
import STS2RL.Combat.Search

/-!
# The Beam Strategy Refines the Single Evaluation

With one round the beam strategy is meant to decide as the single evaluation
does, and with any number of rounds a plan it returns is meant to start with an
action of the decision.

Both hold unless the decision itself is evaluated under hypotheses and no root
action comes out viable. The single evaluation then reports a failure. The beam
strategy completes its only beam where it stands, with the empty plan, and
counts it as viable.

A plan is `Rooted` when it starts with a candidate of the decision. Every
expansion of a rooted path is rooted, so a run can lose the property at the root
only; there the one way to a completed beam that is not rooted is the round
above. The agreement of the two strategies is by cases on what the pipeline and
the batch came to; for a plain batch it rests on the expansions being in the
order in which the aggregation lists the viable actions.

## Main definitions

* `HypothesisZeroViable`: The decision is evaluated under hypotheses and no root
  action is viable.
* `Rooted`: A plan that starts with a candidate.
* `SameOutcome`: Outcomes of one kind, with the same plan.

## Theorems

* `finalResults_items`, `finalResults_result`: What a batch's entries are about.
* `beamRounds_rooted`: A run keeps plans rooted.
* `searchStrategy_agrees`: One round decides as the single evaluation does.
* `beam_refines_iff`: Exactly when the beam strategy refines the single one.
-/

namespace STS2RL

namespace Combat

variable {κ β : Type}

section Batch

variable (env : SearchEnv κ β) (config : SearchConfig)

/-- The entries of a batch are its items, in order. -/
theorem finalResults_items (round beam : Nat) (items : List (WorkItem κ β))
    (finals : List (FinalEntry κ β)) (h : finalResults env config round beam items = .ok finals) :
    finals.map (·.item) = items := by
  unfold finalResults dispatchUntilFinal at h
  simp only [Except.bind_eq_ok] at h
  rcases h with ⟨⟨entries, executed⟩, ⟨st, -, entries', hentries, hpair⟩, hfinals⟩
  cases hpair
  cases hfinals
  exact (finalEntries_eq_ok st items _ hentries).1

/-- Entries of one id have one result. -/
theorem finalResults_result (round beam : Nat) (items : List (WorkItem κ β))
    (finals : List (FinalEntry κ β)) (h : finalResults env config round beam items = .ok finals)
    (final final' : FinalEntry κ β) (hmem : final ∈ finals) (hmem' : final' ∈ finals)
    (hid : final.item.workId = final'.item.workId) : final.result = final'.result := by
  unfold finalResults dispatchUntilFinal at h
  simp only [Except.bind_eq_ok] at h
  rcases h with ⟨⟨entries, executed⟩, ⟨st, -, entries', hentries, hpair⟩, hfinals⟩
  cases hpair
  cases hfinals
  have htables := (finalEntries_eq_ok st items _ hentries).2
  have hresult := (htables final hmem).1
  rw [hid, (htables final' hmem').1] at hresult
  exact (Option.some.inj hresult).symm

/-- A log entry of a batch is about one of its final entries. -/
theorem logEntries_mem (digests : Digests κ) (finals : List (FinalEntry κ β))
    (entries : List BranchDecisionLogEntry) (h : logEntries digests finals = .ok entries)
    (entry : BranchDecisionLogEntry) (hmem : entry ∈ entries) :
    ∃ final ∈ finals, entry.workId = final.item.workId ∧
      entry.semanticAction = some final.item.candidate.semanticAction ∧
      entry.targetIndex = final.item.candidate.targetIndex ∧
      entry.targetEnemyIndex = final.item.candidate.targetEnemyIndex ∧
      entry.resultSignature = final.result.resultSignature ∧
      (entry.status = .success → final.result.status = .success) := by
  rcases Except.exists_of_mem_mapM _ _ _ h entry hmem with ⟨final, hfinal, hentry⟩
  exact ⟨final, hfinal, toDecisionLogEntry_eq_ok digests final.item final.result final.state entry
    hentry⟩

/-- The items of a plain batch are its candidates at the context. -/
theorem plainWorkItems_mem (digests : Digests κ) (context : DecisionContext κ β)
    (candidates : List PipelineCandidateRef) (items : List (WorkItem κ β))
    (h : plainWorkItems digests context candidates = .ok items) (item : WorkItem κ β)
    (hmem : item ∈ items) : item.candidate ∈ candidates ∧ ∃ kind, item.workId =
      digests.jsonDigest (workIdentity (deriveContextId digests context) kind item.candidate) := by
  rcases Except.exists_of_mem_mapM _ _ _ h item hmem with ⟨candidate, hcandidate, hitem⟩
  rcases fromCandidateRef_eq_ok _ _ _ _ _ _ hitem with ⟨-, hcand, -, hcontext, hid⟩
  rw [hcontext] at hid
  rw [hcand]
  exact ⟨List.fst_mem_of_mem_zipIdx hcandidate, _, hid⟩

/-- The items of a batch under hypotheses are its candidates. -/
theorem hypothesisBatch_mem (context : DecisionContext κ β)
    (candidates : List PipelineCandidateRef) (items : List (WorkItem κ β))
    (h : hypothesisBatch env context candidates = .ok items) (item : WorkItem κ β)
    (hmem : item ∈ items) : item.candidate ∈ candidates := by
  unfold hypothesisBatch at h
  rw [Except.bind_eq_ok] at h
  rcases h with ⟨contexts, -, hitems⟩
  rcases Except.exists_of_mem_mapM _ _ _ hitems item hmem with ⟨cell, hcell, hitem⟩
  rcases fromCandidateRef_eq_ok _ _ _ _ _ _ hitem with ⟨-, hcand, -⟩
  rcases List.mem_flatMap.mp hcell with ⟨candidate, hcandidate, hpair⟩
  rcases List.mem_map.mp hpair with ⟨_, -, rfl⟩
  rw [hcand]
  exact List.fst_mem_of_mem_zipIdx hcandidate

end Batch

/-- The step plays one of the candidates. -/
def PlannedStep.Plays (step : PlannedStep) (candidates : List PipelineCandidateRef) : Prop :=
  ∃ candidate ∈ candidates, step.semanticAction = candidate.semanticAction ∧
    step.targetIndex = candidate.targetIndex ∧
    step.targetEnemyIndex = candidate.targetEnemyIndex

/-- The plan starts with one of the candidates. -/
def Rooted (candidates : List PipelineCandidateRef) (plan : List PlannedStep) : Prop :=
  ∃ step rest, plan = step :: rest ∧ step.Plays candidates

theorem Rooted.append {candidates : List PipelineCandidateRef} {plan : List PlannedStep}
    (h : Rooted candidates plan) (more : List PlannedStep) : Rooted candidates (plan ++ more) := by
  rcases h with ⟨step, rest, rfl, hplays⟩
  exact ⟨step, rest ++ more, rfl, hplays⟩

/-- The step a viable action is committed by. -/
def stepOfAction (hypothesisInvolved : Bool) (action : RootActionAggregation)
    (semanticAction : SemanticAction) : PlannedStep :=
  { semanticAction
    targetIndex := action.representativeEntry.targetIndex
    targetEnemyIndex := action.representativeEntry.targetEnemyIndex
    expectedSignature :=
      if hypothesisInvolved then none else action.representativeEntry.resultSignature }

/-- The decision over viable actions that are represented by log entries. -/
theorem buildCommitDecision_cons (best : RootActionAggregation) (rest : List RootActionAggregation)
    (hypothesisInvolved ok : Bool) (semanticAction : SemanticAction)
    (haction : best.representativeEntry.semanticAction = some semanticAction) :
    buildCommitDecision ⟨best :: rest⟩ hypothesisInvolved ok =
      .ok (if ok then .success [stepOfAction hypothesisInvolved best semanticAction]
        else .mainFault "Main state identity changed during search aggregation") := by
  unfold buildCommitDecision AggregationResult.bestAction
  rw [List.head?_cons]
  dsimp only
  cases ok with
  | false => rfl
  | true =>
      rw [if_neg (by simp), haction]
      rfl

section Hypothesis

variable (env : SearchEnv κ β) (config : SearchConfig)

/-- What a batch under hypotheses comes to. -/
def hypothesisAggregation (round index : Nat) (context : DecisionContext κ β)
    (candidates : List PipelineCandidateRef) : Except PyException AggregationResult := do
  let items ← hypothesisBatch env context candidates
  let finals ← finalResults env config round index items
  let entries ← logEntries env.digests finals
  aggregateHypothesisResults config.minCoverageFraction entries

/-- A viable action of a batch under hypotheses plays a candidate. -/
theorem hypothesisAggregation_plays (round index : Nat) (context : DecisionContext κ β)
    (candidates : List PipelineCandidateRef) (aggregation : AggregationResult)
    (h : hypothesisAggregation env config round index context candidates = .ok aggregation)
    (action : RootActionAggregation) (hmem : action ∈ aggregation.viableActions) :
    ∃ semanticAction, action.representativeEntry.semanticAction = some semanticAction ∧
      (stepOfAction true action semanticAction).Plays candidates := by
  unfold hypothesisAggregation at h
  simp only [Except.bind_eq_ok] at h
  rcases h with ⟨items, hitems, finals, hfinals, entries, hentries, haggregation⟩
  have hentry := aggregateHypothesisResults_representative _ entries aggregation haggregation
    action hmem
  rcases logEntries_mem _ _ _ hentries _ (List.mem_filter.mp hentry).1 with
    ⟨final, hfinal, -, haction, htarget, henemy, -⟩
  have hitem : final.item ∈ items :=
    finalResults_items env config round index items finals hfinals ▸ List.mem_map_of_mem hfinal
  exact ⟨_, haction, final.item.candidate,
    hypothesisBatch_mem env context candidates items hitems _ hitem, rfl, htarget, henemy⟩

theorem completedHypothesisRound_eq (round index : Nat) (beam : BeamEntry κ β)
    (candidates : List PipelineCandidateRef) :
    completedHypothesisRound env config round index beam candidates = (do
      let aggregation ← hypothesisAggregation env config round index beam.context candidates
      let decision ← buildCommitDecision aggregation true true
      completeHypothesisRound beam decision aggregation.bestAction) := by
  unfold completedHypothesisRound hypothesisAggregation
  simp only [bind_assoc]

/-- The beam after a round under hypotheses with a viable action. -/
def BeamEntry.commit (beam : BeamEntry κ β) (best : RootActionAggregation) (step : PlannedStep) :
    CompletedBeam :=
  { planPath := beam.context.planPath.map plannedStep ++ [step]
    cumulativeScore := beam.cumulativeScore + best.aggregateScore
    sortKey := beam.sortKey ++ [best.rootActionKey]
    reason := "hypothesis_required" }

/-- A round under hypotheses fails with its batch, ends the beam where it stands,
    or goes on by one step that plays a candidate. -/
theorem completedHypothesisRound_cases (round index : Nat) (beam : BeamEntry κ β)
    (candidates : List PipelineCandidateRef) :
    match hypothesisAggregation env config round index beam.context candidates with
    | .error e => completedHypothesisRound env config round index beam candidates = .error e
    | .ok ⟨[]⟩ => completedHypothesisRound env config round index beam candidates =
        .ok (beam.complete "hypothesis_zero_viable")
    | .ok ⟨best :: _⟩ => ∃ semanticAction,
        best.representativeEntry.semanticAction = some semanticAction ∧
        (stepOfAction true best semanticAction).Plays candidates ∧
        completedHypothesisRound env config round index beam candidates =
          .ok (beam.commit best (stepOfAction true best semanticAction)) := by
  rw [completedHypothesisRound_eq]
  cases hagg : hypothesisAggregation env config round index beam.context candidates with
  | error e => rfl
  | ok aggregation =>
      obtain ⟨viable⟩ := aggregation
      cases viable with
      | nil => rfl
      | cons best rest =>
          rcases hypothesisAggregation_plays env config round index beam.context candidates _ hagg
            best List.mem_cons_self with ⟨semanticAction, haction, hplays⟩
          refine ⟨semanticAction, haction, hplays, ?_⟩
          dsimp only [bind, Except.bind]
          rw [buildCommitDecision_cons best rest true true semanticAction haction]
          rfl

end Hypothesis

section Plain

variable (env : SearchEnv κ β) (config : SearchConfig)

/-- What a plain batch comes to: its final entries and their aggregation. -/
def plainEvaluation (round index : Nat) (context : DecisionContext κ β)
    (candidates : List PipelineCandidateRef) :
    Except PyException (List (FinalEntry κ β) × AggregationResult) := do
  let items ← plainWorkItems env.digests context candidates
  let finals ← finalResults env config round index items
  let entries ← logEntries env.digests finals
  let aggregation ← aggregatePlainResults entries
  pure (finals, aggregation)

/-- The branch of each id. -/
def branchTable (finals : List (FinalEntry κ β)) : Dict String (BranchResult κ β) :=
  Dict.empty.setAll (finals.map fun final => (final.item.workId, final.result))

/-- The candidate of each id. -/
def candidateTable (finals : List (FinalEntry κ β)) : Dict String PipelineCandidateRef :=
  Dict.empty.setAll (finals.map fun final => (final.item.workId, final.item.candidate))

theorem plainRoundExpansions_eq (round index : Nat) (beam : BeamEntry κ β)
    (candidates : List PipelineCandidateRef) :
    plainRoundExpansions env config round index beam candidates = (do
      let (finals, aggregation) ← plainEvaluation env config round index beam.context candidates
      let expansions ← aggregation.viableActions.mapM
        (expansionOf beam (branchTable finals) (candidateTable finals))
      pure (expansions.filterMap id)) := by
  unfold plainRoundExpansions plainEvaluation branchTable candidateTable
  simp only [bind_assoc, pure_bind]

/-- No two candidates at the context have one digest unless they are one action
    with one score. -/
def DigestSeparates (digests : Digests κ) (context : DecisionContext κ β)
    (candidates : List PipelineCandidateRef) : Prop :=
  Set.InjOn digests.jsonDigest {payload | ∃ kind, ∃ candidate ∈ candidates,
    payload = workIdentity (deriveContextId digests context) kind candidate}

/-- How an expansion stands to the viable action it comes from. -/
structure Expands (beam : BeamEntry κ β) (candidates : List PipelineCandidateRef)
    (separates : Prop) (action : RootActionAggregation) (expansion : ExpansionCandidate κ β) :
    Prop where
  parent : expansion.parent = beam
  plays : (plannedStep expansion.entry).Plays candidates
  score : expansion.roundScore = action.aggregateScore
  key : expansion.rootActionKey = action.rootActionKey
  success : expansion.branchResult.status = .success
  step : separates → ∃ semanticAction,
    action.representativeEntry.semanticAction = some semanticAction ∧
    plannedStep expansion.entry = stepOfAction false action semanticAction

/-- Every viable action of a plain batch is expanded. -/
theorem expansionOf_viable (round index : Nat) (beam : BeamEntry κ β)
    (candidates : List PipelineCandidateRef) (finals : List (FinalEntry κ β))
    (aggregation : AggregationResult)
    (h : plainEvaluation env config round index beam.context candidates =
      .ok (finals, aggregation))
    (action : RootActionAggregation) (hmem : action ∈ aggregation.viableActions) :
    ∃ expansion, expansionOf beam (branchTable finals) (candidateTable finals) action =
        .ok (some expansion) ∧
      Expands beam candidates (DigestSeparates env.digests beam.context candidates) action
        expansion := by
  unfold plainEvaluation at h
  simp only [Except.bind_eq_ok] at h
  rcases h with ⟨items, hitems, finals', hfinals, entries, hentries, aggregation',
    haggregation, hpair⟩
  cases hpair
  have hentry := List.mem_filter.mp
    (aggregatePlainResults_representative entries aggregation haggregation action hmem)
  rcases logEntries_mem _ _ _ hentries _ hentry.1 with
    ⟨final, hfinal, hid, haction, htarget, henemy, hsignature, hstatus⟩
  have hsuccess : final.result.status = .success := by
    have := hentry.2
    simp only [decide_eq_true_eq, Bool.decide_and, Bool.and_eq_true] at this
    exact hstatus this.2
  have hitem : ∀ final ∈ finals, final.item ∈ items := fun final hfinal =>
    finalResults_items env config round index items finals hfinals ▸ List.mem_map_of_mem hfinal
  -- Results are one for each id, so the table holds the result of this entry.
  have hbranch : (branchTable finals).get? action.representativeEntry.workId =
      some final.result := by
    apply Dict.get?_setAll_of_mem
    · exact List.mem_map.mpr ⟨final, hfinal, by rw [hid]⟩
    · intro result hresult
      rcases List.mem_map.mp hresult with ⟨other, hother, heq⟩
      rw [Prod.mk.injEq] at heq
      rw [← heq.2]
      exact finalResults_result env config round index items finals hfinals other final
        hother hfinal
        (heq.1.trans hid)
  have hcandidate : ∃ other ∈ finals, other.item.workId = final.item.workId ∧
      (candidateTable finals).get? action.representativeEntry.workId =
        some other.item.candidate := by
    have hsome : ∃ candidate, (candidateTable finals).get? action.representativeEntry.workId =
        some candidate := by
      apply Dict.exists_get?_setAll
      rw [List.map_map, hid]
      exact List.mem_map.mpr ⟨final, hfinal, rfl⟩
    rcases hsome with ⟨candidate, hcandidate⟩
    rcases Dict.mem_of_get?_setAll _ _ _ _ hcandidate with hin | hnone
    · rcases List.mem_map.mp hin with ⟨other, hother, heq⟩
      rw [Prod.mk.injEq] at heq
      exact ⟨other, hother, heq.1.trans hid, by rw [hcandidate, ← heq.2]⟩
    · cases hnone
  rcases hcandidate with ⟨other, hother, hsameId, hlookup⟩
  rcases final.result.success_boundary hsuccess with ⟨signature, hresult, -⟩
  refine ⟨{ parent := beam
            branchResult := final.result
            entry :=
              { semanticAction := other.item.candidate.semanticAction
                expectedSignature := signature
                targetIndex := other.item.candidate.targetIndex
                targetEnemyIndex := other.item.candidate.targetEnemyIndex }
            roundScore := action.aggregateScore
            rootActionKey := action.rootActionKey }, ?_, ?_⟩
  · unfold expansionOf
    dsimp only
    rw [hbranch, hlookup]
    dsimp only
    rw [if_neg (by rw [hsuccess]; simp), hresult]
    rfl
  · rcases plainWorkItems_mem _ _ _ _ hitems _ (hitem other hother) with
      ⟨hotherMem, otherKind, hotherId⟩
    rcases plainWorkItems_mem _ _ _ _ hitems _ (hitem final hfinal) with
      ⟨hfinalMem, finalKind, hfinalId⟩
    refine ⟨rfl, ⟨_, hotherMem, rfl, rfl, rfl⟩, rfl, rfl, hsuccess, fun hseparates => ?_⟩
    have hdigest := hotherId.symm.trans (hsameId.trans hfinalId)
    have hidentity := ((workIdentity_inj _ _ _ _ _ _).mp
      (hseparates ⟨_, _, hotherMem, rfl⟩ ⟨_, _, hfinalMem, rfl⟩ hdigest)).2.2
    simp only [PipelineCandidateRef.identity, Prod.mk.injEq] at hidentity
    refine ⟨_, haction, ?_⟩
    simp only [plannedStep, stepOfAction, htarget, henemy, hsignature, hresult, hidentity.1,
      hidentity.2.1, hidentity.2.2.1, Bool.false_eq_true, if_false]

/-- A plain round fails with its batch, or expands every viable action in order. -/
theorem plainRoundExpansions_cases (round index : Nat) (beam : BeamEntry κ β)
    (candidates : List PipelineCandidateRef) :
    match plainEvaluation env config round index beam.context candidates with
    | .error e => plainRoundExpansions env config round index beam candidates = .error e
    | .ok (_, aggregation) => ∃ expansions,
        plainRoundExpansions env config round index beam candidates = .ok expansions ∧
        List.Forall₂ (Expands beam candidates
          (DigestSeparates env.digests beam.context candidates))
          aggregation.viableActions expansions := by
  rw [plainRoundExpansions_eq]
  cases hevaluation : plainEvaluation env config round index beam.context candidates with
  | error e => rfl
  | ok pair =>
      obtain ⟨finals, aggregation⟩ := pair
      have hviable := fun action hmem => expansionOf_viable env config round index beam candidates
        finals aggregation hevaluation action hmem
      -- Each viable action has an expansion of its own, in the same order.
      have hmap : ∃ found, aggregation.viableActions.mapM
            (expansionOf beam (branchTable finals) (candidateTable finals)) = .ok found ∧
          List.Forall₂ (fun action expansion? => ∃ expansion, expansion? = some expansion ∧
            Expands beam candidates (DigestSeparates env.digests beam.context candidates) action
              expansion) aggregation.viableActions found := by
        refine Except.mapM_forall₂ _ _ _ fun action hmem => ?_
        rcases hviable action hmem with ⟨expansion, hok, hexpands⟩
        exact ⟨_, hok, expansion, rfl, hexpands⟩
      rcases hmap with ⟨found, hfound, hforall⟩
      refine ⟨found.filterMap id, ?_, ?_⟩
      · dsimp only [bind, Except.bind]
        rw [hfound]
        rfl
      -- Nothing is dropped from the list, since every expansion was found.
      · clear hfound hviable hevaluation
        generalize aggregation.viableActions = actions at hforall
        induction hforall with
        | nil => exact .nil
        | cons hhead _ ih =>
            rcases hhead with ⟨expansion, rfl, hexpands⟩
            exact .cons hexpands ih

end Plain

section Run

variable (env : SearchEnv κ β) (config : SearchConfig) (root : DecisionContext κ β)

/-- The decision is evaluated under hypotheses, and in its batch no root action
    succeeds under enough of them. -/
def HypothesisZeroViable : Prop :=
  ∃ continuation subBranches, env.pipeline root = .success continuation subBranches ∧
    requiresHypothesis root (candidateBatch continuation subBranches) = true ∧
    (0 ≤ config.minCoverageFraction ∧ config.minCoverageFraction ≤ 1) ∧
    ∃ items finals entries,
      hypothesisBatch env root (candidateBatch continuation subBranches) = .ok items ∧
      finalResults env config 0 0 items = .ok finals ∧
      logEntries env.digests finals = .ok entries ∧
      (∀ entry ∈ entries, entry.workItemState.isFinal = true) ∧
      NoRootCovered config.minCoverageFraction entries

/-- The aggregation of such a batch is the empty one. -/
theorem hypothesisZeroViable_iff : HypothesisZeroViable env config root ↔
    ∃ continuation subBranches, env.pipeline root = .success continuation subBranches ∧
      requiresHypothesis root (candidateBatch continuation subBranches) = true ∧
      hypothesisAggregation env config 0 0 root (candidateBatch continuation subBranches) =
        .ok ⟨[]⟩ := by
  constructor
  · rintro ⟨continuation, subBranches, hpipeline, hrequires, hfraction, items, finals, entries,
      hitems, hfinals, hentries, hfinal, hcovered⟩
    refine ⟨continuation, subBranches, hpipeline, hrequires, ?_⟩
    unfold hypothesisAggregation
    rw [hitems]
    change (finalResults env config 0 0 items >>= _) = _
    rw [hfinals]
    change (logEntries env.digests finals >>= _) = _
    rw [hentries]
    exact (aggregateHypothesisResults_eq_nil _ entries).mpr ⟨hfraction, hfinal, hcovered⟩
  · rintro ⟨continuation, subBranches, hpipeline, hrequires, haggregation⟩
    unfold hypothesisAggregation at haggregation
    simp only [Except.bind_eq_ok] at haggregation
    rcases haggregation with ⟨items, hitems, finals, hfinals, entries, hentries, haggregation⟩
    rcases (aggregateHypothesisResults_eq_nil _ entries).mp haggregation with
      ⟨hfraction, hfinal, hcovered⟩
    exact ⟨continuation, subBranches, hpipeline, hrequires, hfraction, items, finals, entries,
      hitems, hfinals, hentries, hfinal, hcovered⟩

/-- The plan starts with a candidate of the decision. -/
def Anchored (plan : List PlannedStep) : Prop :=
  ∃ continuation subBranches, env.pipeline root = .success continuation subBranches ∧
    Rooted (candidateBatch continuation subBranches) plan

theorem Anchored.append {plan : List PlannedStep} (h : Anchored env root plan)
    (more : List PlannedStep) : Anchored env root (plan ++ more) := by
  rcases h with ⟨continuation, subBranches, hpipeline, hrooted⟩
  exact ⟨continuation, subBranches, hpipeline, hrooted.append more⟩

theorem Anchored.ne_nil {plan : List PlannedStep} (h : Anchored env root plan) : plan ≠ [] := by
  rcases h with ⟨_, _, _, step, rest, rfl, -⟩
  exact List.cons_ne_nil step rest

/-- A beam whose path starts with a candidate of the decision. -/
def BeamEntry.IsAnchored (beam : BeamEntry κ β) : Prop :=
  Anchored env root (beam.context.planPath.map plannedStep)

/-- Whatever a round leaves is anchored at the root. -/
structure RoundOutcome.IsAnchored (outcome : RoundOutcome κ β) : Prop where
  expansions : ∀ expansion ∈ outcome.expansions,
    Anchored env root (expansion.planPath.map plannedStep)
  completed : ∀ beam ∈ outcome.completed, Anchored env root beam.planPath

theorem RoundOutcome.IsAnchored.complete {outcome : RoundOutcome κ β}
    (h : outcome.IsAnchored env root) (beam : CompletedBeam) (viable : Bool)
    (hbeam : Anchored env root beam.planPath) :
    RoundOutcome.IsAnchored env root
      { outcome with
        completed := outcome.completed ++ [beam]
        producedAnyViable := viable } := by
  refine ⟨h.expansions, fun other hother => ?_⟩
  rcases List.mem_append.mp hother with hold | hnew
  · exact h.completed other hold
  · rw [List.mem_singleton.mp hnew]
    exact hbeam

theorem RoundOutcome.IsAnchored.expand {outcome : RoundOutcome κ β}
    (h : outcome.IsAnchored env root) (expansions : List (ExpansionCandidate κ β)) (viable : Bool)
    (hexpansions : ∀ expansion ∈ expansions,
      Anchored env root (expansion.planPath.map plannedStep)) :
    RoundOutcome.IsAnchored env root
      { outcome with
        expansions := outcome.expansions ++ expansions
        producedAnyViable := viable } := by
  refine ⟨fun expansion hmem => ?_, h.completed⟩
  rcases List.mem_append.mp hmem with hold | hnew
  · exact h.expansions expansion hold
  · exact hexpansions expansion hnew

/-- An expansion's path is its parent's and one step that plays a candidate. -/
theorem forall₂_expands_path {beam : BeamEntry κ β} {candidates : List PipelineCandidateRef}
    {separates : Prop} {actions : List RootActionAggregation}
    {expansions : List (ExpansionCandidate κ β)}
    (h : List.Forall₂ (Expands beam candidates separates) actions expansions) :
    ∀ expansion ∈ expansions, (plannedStep expansion.entry).Plays candidates ∧
      expansion.planPath.map plannedStep =
        beam.context.planPath.map plannedStep ++ [plannedStep expansion.entry] := by
  induction h with
  | nil =>
      intro expansion hmem
      cases hmem
  | cons hhead _ ih =>
      intro expansion hmem
      rcases List.mem_cons.mp hmem with rfl | hrest
      · refine ⟨hhead.plays, ?_⟩
        unfold ExpansionCandidate.planPath
        rw [hhead.parent, List.map_append]
        rfl
      · exact ih expansion hrest

/-- An anchored beam leaves a round anchored. -/
theorem expandBeam_anchored (round index : Nat) (outcome outcome' : RoundOutcome κ β)
    (beam : BeamEntry κ β) (hbeam : beam.IsAnchored env root)
    (houtcome : outcome.IsAnchored env root)
    (h : expandBeam env config round index outcome beam = .ok outcome') :
    outcome'.IsAnchored env root := by
  -- Each of the three ways a board is expanded leaves completed plans or steps; both go on from
  -- the board's own path.
  unfold expandBeam at h
  split at h
  · split at h
    · cases h
      exact houtcome
    · cases h
      exact houtcome.complete env root _ _ hbeam
  · rename_i continuation subBranches hpipeline
    dsimp only at h
    -- Under hypotheses one plan is completed: the board's, or the board's with one step more.
    split at h
    · have hcases := completedHypothesisRound_cases env config round index beam
        (candidateBatch continuation subBranches)
      rw [Except.bind_eq_ok] at h
      rcases h with ⟨completed, hcompleted, h⟩
      cases h
      refine houtcome.complete env root completed true ?_
      split at hcases
      · rw [hcases] at hcompleted
        cases hcompleted
      · rw [hcases] at hcompleted
        cases hcompleted
        exact hbeam
      · rcases hcases with ⟨semanticAction, -, -, hcommit⟩
        rw [hcommit] at hcompleted
        cases hcompleted
        exact Anchored.append env root hbeam _
    -- Without, each viable action is a step from the board.
    · have hcases := plainRoundExpansions_cases env config round index beam
        (candidateBatch continuation subBranches)
      rw [Except.bind_eq_ok] at h
      rcases h with ⟨expansions, hexpansions, h⟩
      split at h
      · cases h
        refine houtcome.expand env root expansions true fun expansion hmem => ?_
        split at hcases
        · rw [hcases] at hexpansions
          cases hexpansions
        · rcases hcases with ⟨found, hfound, hforall⟩
          rw [hfound] at hexpansions
          cases hexpansions
          rw [(forall₂_expands_path hforall expansion hmem).2]
          exact Anchored.append env root hbeam _
      -- No action is viable, and the board is completed if it has a path.
      · split at h
        · cases h
          exact houtcome.complete env root _ _ hbeam
        · cases h
          exact houtcome

/-- The decision itself leaves the first round anchored, unless it is evaluated
    under hypotheses and no root action is viable. -/
theorem expandBeam_root (beam : BeamEntry κ β) (outcome : RoundOutcome κ β)
    (hcontext : beam.context = root) (hpath : root.planPath = [])
    (hviable : ¬ HypothesisZeroViable env config root)
    (h : expandBeam env config 0 0 { producedAnyViable := false } beam = .ok outcome) :
    outcome.IsAnchored env root := by
  have hempty : RoundOutcome.IsAnchored env root
      ({ producedAnyViable := false } : RoundOutcome κ β) :=
    ⟨fun _ hmem => (by cases hmem), fun _ hmem => (by cases hmem)⟩
  -- At the root the path is empty, so a plan that is anchored there begins with an offered
  -- action.
  unfold expandBeam at h
  rw [hcontext] at h
  split at h
  · rw [if_pos ⟨rfl, by simp⟩] at h
    cases h
    exact hempty
  · rename_i continuation subBranches hpipeline
    dsimp only at h
    have hpath' : beam.context.planPath.map plannedStep = [] := by
      rw [hcontext, hpath]
      rfl
    split at h
    · rename_i hhypothesis
      have hcases := completedHypothesisRound_cases env config 0 0 beam
        (candidateBatch continuation subBranches)
      rw [Except.bind_eq_ok] at h
      rcases h with ⟨completed, hcompleted, h⟩
      cases h
      refine hempty.complete env root completed true ?_
      rw [hcontext] at hcases
      split at hcases
      · rw [hcases] at hcompleted
        cases hcompleted
      -- Without a viable action under hypotheses the root would be completed with nothing, which
      -- is excluded.
      · rename_i hzero
        exact absurd ((hypothesisZeroViable_iff env config root).mpr
          ⟨continuation, subBranches, hpipeline, hhypothesis, hzero⟩) hviable
      · rcases hcases with ⟨semanticAction, -, hplays, hcommit⟩
        rw [hcommit] at hcompleted
        cases hcompleted
        refine ⟨continuation, subBranches, hpipeline, _, [], ?_, hplays⟩
        unfold BeamEntry.commit
        rw [hpath']
        rfl
    -- Each step is a plan of one action.
    · have hcases := plainRoundExpansions_cases env config 0 0 beam
        (candidateBatch continuation subBranches)
      rw [Except.bind_eq_ok] at h
      rcases h with ⟨expansions, hexpansions, h⟩
      split at h
      · cases h
        refine hempty.expand env root expansions true fun expansion hmem => ?_
        split at hcases
        · rw [hcases] at hexpansions
          cases hexpansions
        · rcases hcases with ⟨found, hfound, hforall⟩
          rw [hfound] at hexpansions
          cases hexpansions
          rcases forall₂_expands_path hforall expansion hmem with ⟨hplays, hstep⟩
          rw [hstep, hpath']
          exact ⟨continuation, subBranches, hpipeline, _, [], rfl, hplays⟩
      · cases h
        exact hempty

theorem expandBeams_anchored (round : Nat) (beams : List (BeamEntry κ β)) :
    ∀ (index : Nat) (outcome outcome' : RoundOutcome κ β),
      (∀ beam ∈ beams, beam.IsAnchored env root) → outcome.IsAnchored env root →
      expandBeams env config round index outcome beams = .ok outcome' →
      outcome'.IsAnchored env root := by
  induction beams with
  | nil =>
      intro index outcome outcome' _ houtcome h
      cases h
      exact houtcome
  | cons beam rest ih =>
      intro index outcome outcome' hbeams houtcome h
      unfold expandBeams at h
      rw [Except.bind_eq_ok] at h
      rcases h with ⟨next, hnext, h⟩
      exact ih (index + 1) next outcome'
        (fun other hother => hbeams other (List.mem_cons_of_mem beam hother))
        (expandBeam_anchored env config root round index outcome next beam
          (hbeams beam List.mem_cons_self) houtcome hnext) h

/-- A survivor is completed or goes on with its own path. -/
theorem settleSurvivor_path (round : Nat) (lastRound : Bool) (index : Nat)
    (survivor : ExpansionCandidate κ β) (settled : CompletedBeam ⊕ BeamEntry κ β)
    (h : settleSurvivor env round lastRound index survivor = .ok settled) :
    match settled with
    | .inl completed => ∃ reason, completed = survivor.complete reason
    | .inr beam => beam.context.planPath = survivor.planPath := by
  unfold settleSurvivor at h
  split at h
  · cases h
  · split at h
    · cases h
      exact ⟨_, rfl⟩
    · split at h
      · cases h
        exact ⟨_, rfl⟩
      · split at h
        · cases h
        · cases h
          rfl
    · split at h
      · cases h
        exact ⟨_, rfl⟩
      · rw [Except.bind_eq_ok] at h
        rcases h with ⟨state, -, h⟩
        cases h
        rfl
    · cases h
      exact ⟨_, rfl⟩

theorem settleSurvivors_anchored (round : Nat) (lastRound : Bool)
    (survivors : List (ExpansionCandidate κ β)) :
    ∀ (index : Nat) (completed : List CompletedBeam) (active : List (BeamEntry κ β)),
      (∀ survivor ∈ survivors, Anchored env root (survivor.planPath.map plannedStep)) →
      settleSurvivors env round lastRound index survivors = .ok (completed, active) →
      (∀ beam ∈ completed, Anchored env root beam.planPath) ∧
        ∀ beam ∈ active, beam.IsAnchored env root := by
  -- The induction is on the survivors; each becomes a completed plan or a board with its own
  -- path.
  induction survivors with
  | nil =>
      intro index completed active _ h
      cases h
      exact ⟨fun _ hmem => (by cases hmem), fun _ hmem => (by cases hmem)⟩
  | cons survivor rest ih =>
      intro index completed active hsurvivors h
      unfold settleSurvivors at h
      rw [Except.bind_eq_ok] at h
      rcases h with ⟨settled, hsettled, h⟩
      rw [Except.bind_eq_ok] at h
      rcases h with ⟨⟨completed', active'⟩, hrest, h⟩
      have hpath := settleSurvivor_path env round lastRound index survivor settled hsettled
      have hown := hsurvivors survivor List.mem_cons_self
      rcases ih (index + 1) completed' active'
        (fun other hother => hsurvivors other (List.mem_cons_of_mem survivor hother)) hrest with
        ⟨hcompleted, hactive⟩
      cases settled with
      | inl beam =>
          cases h
          rcases hpath with ⟨reason, rfl⟩
          refine ⟨fun other hother => ?_, hactive⟩
          rcases List.mem_cons.mp hother with rfl | hin
          · exact hown
          · exact hcompleted other hin
      | inr beam =>
          cases h
          refine ⟨hcompleted, fun other hother => ?_⟩
          rcases List.mem_cons.mp hother with rfl | hin
          · unfold BeamEntry.IsAnchored
            rw [hpath]
            exact hown
          · exact hactive other hin

/-- Completed beams are anchored, and so are the active ones that have a path. -/
structure BeamState.IsAnchored (state : BeamState κ β) : Prop where
  completed : ∀ beam ∈ state.completed, Anchored env root beam.planPath
  active : ∀ beam ∈ state.active, beam.context.planPath ≠ [] → beam.IsAnchored env root

/-- The end of a round whose outcome is anchored. -/
theorem endRound_anchored (round beamWidth : Nat) (lastRound : Bool)
    (outcome : RoundOutcome κ β) (completed settled : List CompletedBeam)
    (active : List (BeamEntry κ β)) (houtcome : outcome.IsAnchored env root)
    (hcompleted : ∀ beam ∈ completed, Anchored env root beam.planPath)
    (h : settleSurvivors env round lastRound 0
      ((outcome.expansions.mergeSort expansionLe).take beamWidth) = .ok (settled, active)) :
    (∀ beam ∈ (completed ++ outcome.completed) ++ settled, Anchored env root beam.planPath) ∧
      ∀ beam ∈ active, beam.IsAnchored env root := by
  have hsurvivors : ∀ survivor ∈ (outcome.expansions.mergeSort expansionLe).take beamWidth,
      Anchored env root (survivor.planPath.map plannedStep) := fun survivor hmem =>
    houtcome.expansions survivor (List.mem_mergeSort.mp (List.mem_of_mem_take hmem))
  rcases settleSurvivors_anchored env root round lastRound _ 0 settled active hsurvivors h with
    ⟨hsettled, hactive⟩
  refine ⟨fun beam hmem => ?_, hactive⟩
  rcases List.mem_append.mp hmem with hmem | hmem
  · rcases List.mem_append.mp hmem with hold | hnew
    · exact hcompleted beam hold
    · exact houtcome.completed beam hnew
  · exact hsettled beam hmem

/-- A run from anchored beams keeps plans anchored. -/
theorem beamRounds_anchored (beamWidth : Nat) :
    ∀ (left round : Nat) (state state' : BeamState κ β),
      (∀ beam ∈ state.active, beam.IsAnchored env root) →
      (∀ beam ∈ state.completed, Anchored env root beam.planPath) →
      beamRounds env config beamWidth left round state = .ok state' →
      state'.IsAnchored env root := by
  intro left
  -- The induction is on the rounds that are left.
  induction left with
  | zero =>
      intro round state state' hactive hcompleted h
      cases h
      exact ⟨hcompleted, fun beam hmem _ => hactive beam hmem⟩
  | succ left ih =>
      intro round state state' hactive hcompleted h
      unfold beamRounds at h
      rw [Except.bind_eq_ok] at h
      rcases h with ⟨outcome, houtcome, h⟩
      have hanchored := expandBeams_anchored env config root round state.active 0 _ outcome hactive
        ⟨fun _ hmem => (by cases hmem), fun _ hmem => (by cases hmem)⟩ houtcome
      dsimp only at h
      -- Nothing was viable in this round, so the boards stay as they are, and the plans that
      -- were completed in it are added.
      split at h
      · cases h
        refine ⟨fun beam hmem => ?_, fun beam hmem _ => hactive beam hmem⟩
        rcases List.mem_append.mp hmem with hold | hnew
        · exact hcompleted beam hold
        · exact hanchored.completed beam hnew
      -- Otherwise the survivors are settled, and the boards among them go into the next round.
      · rw [Except.bind_eq_ok] at h
        rcases h with ⟨⟨settled, active⟩, hsettled, h⟩
        rcases endRound_anchored env root round beamWidth _ outcome state.completed settled active
          hanchored hcompleted hsettled with ⟨hall, hnext⟩
        dsimp only at h
        split at h
        · cases h
          exact ⟨hall, fun beam hmem _ => hnext beam hmem⟩
        · exact ih (round + 1) _ state' hnext hall h

/-- A run from the decision keeps plans anchored, unless it is evaluated under
    hypotheses and no root action is viable. -/
theorem beamRounds_rooted (beamWidth maxRounds : Nat) (state : BeamState κ β)
    (hpath : root.planPath = []) (hviable : ¬ HypothesisZeroViable env config root)
    (h : beamRounds env config beamWidth maxRounds 0
      { active := [{ context := root, cumulativeScore := 0, sortKey := [] }] } = .ok state) :
    state.IsAnchored env root := by
  -- Without a round the root alone is left, which has no path.
  cases maxRounds with
  | zero =>
      cases h
      refine ⟨fun _ hmem => (by cases hmem), fun beam hmem hne => ?_⟩
      rw [List.mem_singleton.mp hmem] at hne
      exact absurd hpath hne
  | succ left =>
      unfold beamRounds at h
      rw [Except.bind_eq_ok] at h
      rcases h with ⟨outcome, houtcome, h⟩
      unfold expandBeams expandBeams at houtcome
      rw [Except.bind_eq_ok] at houtcome
      rcases houtcome with ⟨outcome', hbeam, hsame⟩
      cases hsame
      -- The first round expands the root, the later ones boards that are anchored already.
      have hanchored := expandBeam_root env config root _ outcome rfl hpath hviable hbeam
      dsimp only at h
      split at h
      · cases h
        refine ⟨fun beam hmem => hanchored.completed beam (by simpa using hmem),
          fun beam hmem hne => ?_⟩
        rw [List.mem_singleton.mp hmem] at hne
        exact absurd hpath hne
      · rw [Except.bind_eq_ok] at h
        rcases h with ⟨⟨settled, active⟩, hsettled, h⟩
        rcases endRound_anchored env root 0 beamWidth _ outcome [] settled active hanchored
          (fun _ hmem => (by cases hmem)) hsettled with ⟨hall, hnext⟩
        dsimp only at h
        split at h
        · cases h
          exact ⟨hall, fun beam hmem _ => hnext beam hmem⟩
        · exact beamRounds_anchored env config root beamWidth left 1 _ state hnext hall h

/-- A plan that is committed is anchored. -/
theorem commitBeams_anchored (state : BeamState κ β) (plan : List PlannedStep)
    (hstate : state.IsAnchored env root) (h : commitBeams env root state = .ok (.success plan)) :
    Anchored env root plan := by
  unfold commitBeams at h
  split at h
  · cases h
  · dsimp only at h
    split at h
    · cases h
    · rename_i best hbest
      split at h
      · cases h
      · cases h
        have hmem := List.mem_mergeSort.mp (List.mem_of_mem_head? hbest)
        rcases List.mem_append.mp hmem with hcompleted | hactive
        · exact hstate.completed best hcompleted
        · rcases List.mem_map.mp hactive with ⟨beam, hbeam, rfl⟩
          rcases List.mem_filter.mp hbeam with ⟨hin, hne⟩
          exact hstate.active beam hin (of_decide_eq_true hne)

end Run

section Agreement

variable (env : SearchEnv κ β) (config : SearchConfig) (root : DecisionContext κ β)

/-- The single evaluation of a batch under hypotheses. -/
theorem searchStrategy_hypothesis (continuation : PipelineCandidateRef)
    (subBranches : List PipelineCandidateRef)
    (hpipeline : env.pipeline root = .success continuation subBranches)
    (hrequires : requiresHypothesis root (candidateBatch continuation subBranches) = true) :
    searchStrategy env config root = (do
      let aggregation ← hypothesisAggregation env config 0 0 root
        (candidateBatch continuation subBranches)
      let decision ← buildCommitDecision aggregation true (mainInvariantOk env root)
      concludeSearch decision) := by
  unfold searchStrategy hypothesisAggregation
  rw [hpipeline]
  dsimp only
  rw [hrequires]
  simp only [if_true, bind_assoc]

/-- The single evaluation of a plain batch. -/
theorem searchStrategy_plain (continuation : PipelineCandidateRef)
    (subBranches : List PipelineCandidateRef)
    (hpipeline : env.pipeline root = .success continuation subBranches)
    (hrequires : requiresHypothesis root (candidateBatch continuation subBranches) = false) :
    searchStrategy env config root = (do
      let (_, aggregation) ← plainEvaluation env config 0 0 root
        (candidateBatch continuation subBranches)
      let decision ← buildCommitDecision aggregation false (mainInvariantOk env root)
      concludeSearch decision) := by
  unfold searchStrategy plainEvaluation
  rw [hpipeline]
  dsimp only
  rw [hrequires]
  simp only [Bool.false_eq_true, if_false, bind_assoc, pure_bind]

/-- The beam the strategy starts from. -/
def rootBeam : BeamEntry κ β := { context := root, cumulativeScore := 0, sortKey := [] }

/-- Expansions of the root are in the order of the viable actions. -/
theorem expansions_sorted (hpath : root.planPath = []) {candidates : List PipelineCandidateRef}
    {separates : Prop} {actions : List RootActionAggregation}
    {expansions : List (ExpansionCandidate κ β)}
    (h : List.Forall₂ (Expands (rootBeam root) candidates separates) actions expansions)
    (hsorted : actions.Pairwise fun a b => rootLe a b = true) :
    expansions.Pairwise fun a b => expansionLe a b = true := by
  refine pairwise_of_forall₂ ?_ h hsorted
  intro a b x y hx hy hle
  unfold rootLe at hle
  unfold expansionLe rankLe ExpansionCandidate.cumulativeScore ExpansionCandidate.sortKey
    ExpansionCandidate.planPath
  rw [hx.parent, hy.parent, hx.score, hy.score, hx.key, hy.key]
  rw [decide_eq_true_eq] at hle ⊢
  simp only [rootBeam, hpath, List.nil_append, zero_add, List.length_singleton, lt_irrefl,
    false_or, true_and]
  rcases hle with hscore | ⟨hscore, hkey⟩
  · exact .inl hscore
  · refine .inr ⟨hscore, ?_⟩
    rcases lt_or_eq_of_le hkey with hlt | heq
    · exact le_of_lt (List.Lex.rel hlt)
    · rw [heq]

/-- In the last round every survivor is completed. -/
theorem settleSurvivors_last (round : Nat) (survivors : List (ExpansionCandidate κ β)) :
    ∀ index, (∀ survivor ∈ survivors, survivor.branchResult.status = .success) →
      ∃ completed, settleSurvivors env round true index survivors = .ok (completed, []) ∧
        List.Forall₂ (fun survivor beam => ∃ reason,
          beam = ExpansionCandidate.complete survivor reason) survivors completed := by
  -- The induction is on the survivors. In the last round each is completed, whatever its
  -- boundary.
  induction survivors with
  | nil => exact fun index _ => ⟨[], rfl, .nil⟩
  | cons survivor rest ih =>
      intro index hsuccess
      rcases ih (index + 1) fun other hother =>
        hsuccess other (List.mem_cons_of_mem survivor hother) with ⟨completed, hrest, hforall⟩
      have hhead : ∃ reason, settleSurvivor env round true index survivor =
          .ok (.inl (survivor.complete reason)) := by
        -- A branch that succeeded has a signature, and with it a boundary.
        rcases survivor.branchResult.success_boundary (hsuccess survivor List.mem_cons_self) with
          ⟨signature, hsignature, -⟩
        unfold settleSurvivor
        rw [hsignature]
        dsimp only
        split
        · exact ⟨_, rfl⟩
        · exact ⟨_, rfl⟩
        · exact ⟨_, rfl⟩
        · exact ⟨_, rfl⟩
      rcases hhead with ⟨reason, hhead⟩
      refine ⟨survivor.complete reason :: completed, ?_, .cons ⟨reason, rfl⟩ hforall⟩
      unfold settleSurvivors
      rw [hhead]
      dsimp only [bind, Except.bind]
      rw [hrest]
      rfl

/-- Outcomes of one kind, with the same plan. -/
def SameOutcome : Except PyException SearchResult → Except PyException SearchResult → Prop
  | .ok (.success plan), .ok (.success plan') => plan = plan'
  | .ok (.evaluationFailure _), .ok (.evaluationFailure _) => True
  | .error e, .error e' => e.typeName = e'.typeName
  | _, _ => False

/-- The same configuration with another number of rounds. -/
def BeamSearchConfig.withRounds (config : BeamSearchConfig) (maxRounds : Nat)
    (hpos : 0 < maxRounds) : BeamSearchConfig :=
  { config with
    maxRounds
    maxRounds_pos := hpos }

/-- The search with a single round. -/
def BeamSearchConfig.oneRound (config : BeamSearchConfig) : BeamSearchConfig :=
  config.withRounds 1 Nat.one_pos

/-- One round, as the expansion of the root and what becomes of it. -/
theorem beamSearchStrategy_oneRound (config : BeamSearchConfig) :
    beamSearchStrategy env config.oneRound root = (do
      let outcome ← expandBeam env config.coordinator 0 0 { producedAnyViable := false }
        (rootBeam root)
      if outcome.expansions = [] then
        commitBeams env root
          { active := [rootBeam root]
            completed := outcome.completed
            producedAnyViable := outcome.producedAnyViable }
      else do
        let (settled, active) ← settleSurvivors env 0 true 0
          ((outcome.expansions.mergeSort expansionLe).take config.beamWidth)
        commitBeams env root
          { active
            completed := outcome.completed ++ settled
            producedAnyViable := outcome.producedAnyViable }) := by
  unfold beamSearchStrategy BeamSearchConfig.oneRound BeamSearchConfig.withRounds
  unfold beamRounds expandBeams expandBeams
  simp only [bind_assoc, pure_bind]
  refine bind_congr fun outcome => ?_
  split
  · rfl
  · rw [bind_assoc]
    refine bind_congr fun settled => ?_
    unfold beamRounds
    simp only [ite_self, pure_bind, List.nil_append]

/-- The commit of beams in order is the first of them. -/
theorem commitBeams_eq (state : BeamState κ β) (best : CompletedBeam) (rest : List CompletedBeam)
    (hproduced : state.producedAnyViable = true)
    (hactive : ∀ beam ∈ state.active, beam.context.planPath = [])
    (hcompleted : state.completed = best :: rest)
    (hsorted : state.completed.Pairwise fun a b => completedLe a b = true) :
    commitBeams env root state =
      if mainInvariantOk env root then .ok (.success best.planPath)
      else .error (mainInvariantViolated
        "Main state identity changed during multi-round search aggregation") := by
  have hnone : state.active.filter (fun beam => beam.context.planPath ≠ []) = [] := by
    rw [List.filter_eq_nil_iff]
    intro beam hmem
    simp [hactive beam hmem]
  unfold commitBeams
  rw [hproduced, if_neg (by simp), hnone]
  dsimp only
  rw [List.map_nil, List.append_nil, List.mergeSort_of_pairwise hsorted, hcompleted,
    List.head?_cons]
  cases mainInvariantOk env root <;> rfl

/-! ### The expansion of the root -/

theorem expandRoot_noViable (config : SearchConfig) {detail : String}
    (hpipeline : env.pipeline root = .noViable detail) :
    expandBeam env config 0 0 { producedAnyViable := false } (rootBeam root) =
      .ok { producedAnyViable := false } := by
  unfold expandBeam
  rw [show (rootBeam root).context = root from rfl, hpipeline]
  rfl

section Success

variable {continuation : PipelineCandidateRef} {subBranches : List PipelineCandidateRef}

theorem expandRoot_hypothesis (config : SearchConfig)
    (hpipeline : env.pipeline root = .success continuation subBranches)
    (hrequires : requiresHypothesis root (candidateBatch continuation subBranches) = true) :
    expandBeam env config 0 0 { producedAnyViable := false } (rootBeam root) =
      (completedHypothesisRound env config 0 0 (rootBeam root)
        (candidateBatch continuation subBranches)).map fun completed =>
          { completed := [completed], producedAnyViable := true } := by
  unfold expandBeam
  rw [show (rootBeam root).context = root from rfl, hpipeline]
  dsimp only
  rw [if_pos hrequires]
  rfl

theorem expandRoot_plain (config : SearchConfig)
    (hpipeline : env.pipeline root = .success continuation subBranches)
    (hrequires : requiresHypothesis root (candidateBatch continuation subBranches) = false) :
    expandBeam env config 0 0 { producedAnyViable := false } (rootBeam root) =
      (plainRoundExpansions env config 0 0 (rootBeam root)
        (candidateBatch continuation subBranches)).map fun expansions =>
          { expansions, producedAnyViable := decide (expansions ≠ []) } := by
  unfold expandBeam
  rw [show (rootBeam root).context = root from rfl, hpipeline]
  dsimp only
  rw [hrequires, if_neg (by simp)]
  rcases plainRoundExpansions env config 0 0 (rootBeam root)
    (candidateBatch continuation subBranches) with e | _ | ⟨expansion, rest⟩ <;> rfl

end Success

/-- A round in which the root cannot be expanded ends as the expansion does. -/
theorem oneRound_of_error (config : BeamSearchConfig) {e : PyException}
    (hexpand : expandBeam env config.coordinator 0 0 { producedAnyViable := false }
      (rootBeam root) = .error e) : beamSearchStrategy env config.oneRound root = .error e := by
  rw [beamSearchStrategy_oneRound, hexpand]
  rfl

/-- A round without an expansion and without a completed beam fails. -/
theorem oneRound_of_nothing (config : BeamSearchConfig)
    (hexpand : expandBeam env config.coordinator 0 0 { producedAnyViable := false }
      (rootBeam root) = .ok { producedAnyViable := false }) (detail : String) :
    SameOutcome (.ok (.evaluationFailure detail))
      (beamSearchStrategy env config.oneRound root) := by
  rw [beamSearchStrategy_oneRound, hexpand]
  trivial

/-- The first round of a decision under hypotheses. -/
theorem oneRound_hypothesis (config : BeamSearchConfig) (hpath : root.planPath = [])
    (continuation : PipelineCandidateRef) (subBranches : List PipelineCandidateRef)
    (hpipeline : env.pipeline root = .success continuation subBranches)
    (hrequires : requiresHypothesis root (candidateBatch continuation subBranches) = true)
    (completed : CompletedBeam)
    (hround : completedHypothesisRound env config.coordinator 0 0 (rootBeam root)
      (candidateBatch continuation subBranches) = .ok completed) :
    beamSearchStrategy env config.oneRound root =
      if mainInvariantOk env root then .ok (.success completed.planPath)
      else .error (mainInvariantViolated
        "Main state identity changed during multi-round search aggregation") := by
  have hexpand : expandBeam env config.coordinator 0 0 { producedAnyViable := false }
      (rootBeam root) = .ok { completed := [completed], producedAnyViable := true } := by
    rw [expandRoot_hypothesis env root config.coordinator hpipeline hrequires, hround]
    rfl
  rw [beamSearchStrategy_oneRound, hexpand]
  dsimp only [bind, Except.bind]
  rw [if_pos rfl]
  refine commitBeams_eq env root _ completed [] rfl (fun beam hmem => ?_) rfl
    (List.pairwise_singleton _ _)
  rw [List.mem_singleton.mp hmem]
  exact hpath

/-- The first round of a plain decision with viable actions. -/
theorem oneRound_plain (config : BeamSearchConfig) (hpath : root.planPath = [])
    (continuation : PipelineCandidateRef) (subBranches : List PipelineCandidateRef)
    (hpipeline : env.pipeline root = .success continuation subBranches)
    (hrequires : requiresHypothesis root (candidateBatch continuation subBranches) = false)
    (expansion : ExpansionCandidate κ β) (rest : List (ExpansionCandidate κ β))
    (hround : plainRoundExpansions env config.coordinator 0 0 (rootBeam root)
      (candidateBatch continuation subBranches) = .ok (expansion :: rest))
    (hparent : expansion.parent = rootBeam root)
    (hsuccess : ∀ other ∈ expansion :: rest, other.branchResult.status = .success)
    (hsorted : (expansion :: rest).Pairwise fun a b => expansionLe a b = true) :
    beamSearchStrategy env config.oneRound root =
      if mainInvariantOk env root then .ok (.success [plannedStep expansion.entry])
      else .error (mainInvariantViolated
        "Main state identity changed during multi-round search aggregation") := by
  have hexpand : expandBeam env config.coordinator 0 0 { producedAnyViable := false }
      (rootBeam root) =
        .ok { expansions := expansion :: rest, producedAnyViable := true } := by
    rw [expandRoot_plain env root config.coordinator hpipeline hrequires, hround]
    rfl
  rw [beamSearchStrategy_oneRound, hexpand]
  dsimp only [bind, Except.bind]
  rw [if_neg (List.cons_ne_nil expansion rest), List.mergeSort_of_pairwise hsorted]
  -- The best expansion survives, since the beam is not empty.
  obtain ⟨width, hwidth⟩ := Nat.exists_eq_succ_of_ne_zero
    (Nat.pos_iff_ne_zero.mp config.beamWidth_pos)
  rw [hwidth, Nat.succ_eq_add_one, List.take_succ_cons]
  have hsub : (expansion :: rest.take width).Sublist (expansion :: rest) :=
    (List.take_sublist width rest).cons_cons expansion
  rcases settleSurvivors_last env 0 (expansion :: rest.take width) 0
    (fun other hother => hsuccess other (hsub.subset hother)) with ⟨completed, hsettle, hforall⟩
  rw [hsettle]
  cases hforall with
  | cons hhead htail =>
      rcases hhead with ⟨reason, rfl⟩
      rename_i completed
      have hall : (expansion.complete reason :: completed).Pairwise fun a b =>
          completedLe a b = true := by
        refine pairwise_of_forall₂ ?_ (List.Forall₂.cons ⟨reason, rfl⟩ htail)
          (hsorted.sublist hsub)
        intro a b x y hx hy hle
        rcases hx with ⟨_, rfl⟩
        rcases hy with ⟨_, rfl⟩
        unfold completedLe ExpansionCandidate.complete
        dsimp only
        rw [List.length_map, List.length_map]
        exact hle
      refine (commitBeams_eq env root _ (expansion.complete reason) completed rfl
        (fun beam hmem => by cases hmem) rfl hall).trans ?_
      have hplan : (expansion.complete reason).planPath = [plannedStep expansion.entry] := by
        unfold ExpansionCandidate.complete ExpansionCandidate.planPath
        rw [hparent]
        simp only [rootBeam, hpath, List.nil_append, List.map_cons, List.map_nil]
      rw [hplan]

/-- A decision under hypotheses: the beam that one round completes is the local commit of
    the aggregation that the single evaluation commits. -/
theorem searchStrategy_agrees_hypothesis (config : BeamSearchConfig) (hpath : root.planPath = [])
    (continuation : PipelineCandidateRef) (subBranches : List PipelineCandidateRef)
    (hpipeline : env.pipeline root = .success continuation subBranches)
    (hrequires : requiresHypothesis root (candidateBatch continuation subBranches) = true)
    (hviable : ¬ HypothesisZeroViable env config.coordinator root) :
    SameOutcome (searchStrategy env config.coordinator root)
      (beamSearchStrategy env config.oneRound root) := by
  rw [searchStrategy_hypothesis env config.coordinator root continuation subBranches hpipeline
    hrequires]
  have hcases := completedHypothesisRound_cases env config.coordinator 0 0 (rootBeam root)
    (candidateBatch continuation subBranches)
  rw [show (rootBeam root).context = root from rfl] at hcases
  -- Both searches aggregate the same entries, so they fail alike, commit alike or find nothing
  -- alike.
  cases hagg : hypothesisAggregation env config.coordinator 0 0 root
      (candidateBatch continuation subBranches) with
  | error e =>
      rw [hagg] at hcases
      rw [oneRound_of_error env root config (by
        rw [expandRoot_hypothesis env root config.coordinator hpipeline hrequires, hcases]
        rfl)]
      exact rfl
  | ok aggregation =>
      obtain ⟨viable⟩ := aggregation
      rw [hagg] at hcases
      cases viable with
      -- Finding nothing is the case in which they differ, and it is excluded.
      | nil =>
          exact absurd ((hypothesisZeroViable_iff env config.coordinator root).mpr
            ⟨continuation, subBranches, hpipeline, hrequires, hagg⟩) hviable
      | cons best rest =>
          rcases hcases with ⟨semanticAction, haction, -, hround⟩
          rw [oneRound_hypothesis env root config hpath continuation subBranches hpipeline
            hrequires _ hround]
          dsimp only [bind, Except.bind]
          rw [buildCommitDecision_cons best rest true _ semanticAction haction]
          -- The coordinator asks whether its state is still the one it searched from, and so
          -- does the beam.
          cases mainInvariantOk env root with
          | false => exact rfl
          | true =>
              change [stepOfAction true best semanticAction] =
                (rootBeam root).context.planPath.map plannedStep ++
                  [stepOfAction true best semanticAction]
              rw [show (rootBeam root).context.planPath = [] from hpath]
              rfl

/-- A plain decision: the viable actions of the single evaluation stand against the
    expansions of the round, in the same order, so the best of both is the same. -/
theorem searchStrategy_agrees_plain (config : BeamSearchConfig) (hpath : root.planPath = [])
    (continuation : PipelineCandidateRef) (subBranches : List PipelineCandidateRef)
    (hpipeline : env.pipeline root = .success continuation subBranches)
    (hrequires : requiresHypothesis root (candidateBatch continuation subBranches) = false)
    (hdigest : DigestSeparates env.digests root (candidateBatch continuation subBranches)) :
    SameOutcome (searchStrategy env config.coordinator root)
      (beamSearchStrategy env config.oneRound root) := by
  rw [searchStrategy_plain env config.coordinator root continuation subBranches hpipeline hrequires]
  have hcases := plainRoundExpansions_cases env config.coordinator 0 0 (rootBeam root)
    (candidateBatch continuation subBranches)
  rw [show (rootBeam root).context = root from rfl] at hcases
  -- Both searches evaluate the same batch.
  cases hevaluation : plainEvaluation env config.coordinator 0 0 root
      (candidateBatch continuation subBranches) with
  | error e =>
      rw [hevaluation] at hcases
      rw [oneRound_of_error env root config (by
        rw [expandRoot_plain env root config.coordinator hpipeline hrequires, hcases]
        rfl)]
      exact rfl
  | ok pair =>
      obtain ⟨finals, ⟨viable⟩⟩ := pair
      rw [hevaluation] at hcases
      rcases hcases with ⟨expansions, hround, hforall⟩
      dsimp only [bind, Except.bind]
      cases hforall with
      -- Nothing is viable: neither has a plan.
      | nil =>
          refine oneRound_of_nothing env root config ?_ _
          rw [expandRoot_plain env root config.coordinator hpipeline hrequires, hround]
          rfl
      | cons hhead htail =>
          rename_i best expansion rest more
          have hall := List.Forall₂.cons hhead htail
          -- The actions are sorted already, so the beam's best expansion is the coordinator's
          -- best action.
          have hsorted : (best :: rest).Pairwise fun a b => rootLe a b = true := by
            unfold plainEvaluation at hevaluation
            simp only [Except.bind_eq_ok] at hevaluation
            rcases hevaluation with ⟨_, _, _, _, entries, _, found, hfound, hpair⟩
            cases hpair
            exact aggregatePlainResults_sorted entries _ hfound
          have hsuccess : ∀ other ∈ expansion :: more, other.branchResult.status = .success := by
            intro other hother
            rcases forall₂_exists_left hall hother with ⟨action, -, hexpands⟩
            exact hexpands.success
          -- The step of that expansion is the step of that action, as the digest tells the
          -- candidates apart.
          rcases hhead.step hdigest with ⟨semanticAction, haction, hstep⟩
          rw [oneRound_plain env root config hpath continuation subBranches hpipeline hrequires
            expansion more hround hhead.parent hsuccess (expansions_sorted root hpath hall hsorted),
            buildCommitDecision_cons best rest false _ semanticAction haction, hstep]
          cases mainInvariantOk env root with
          | false => exact rfl
          | true => exact rfl

/-- One round decides as the single evaluation does, unless the decision is
    evaluated under hypotheses and no root action is viable. -/
theorem searchStrategy_agrees (config : BeamSearchConfig) (hpath : root.planPath = [])
    (hdigest : ∀ continuation subBranches,
      env.pipeline root = .success continuation subBranches →
      DigestSeparates env.digests root (candidateBatch continuation subBranches))
    (hviable : ¬ HypothesisZeroViable env config.coordinator root) :
    SameOutcome (searchStrategy env config.coordinator root)
      (beamSearchStrategy env config.oneRound root) := by
  cases hpipeline : env.pipeline root with
  | noViable detail =>
      have hsearch : searchStrategy env config.coordinator root =
          .ok (.evaluationFailure detail) := by
        unfold searchStrategy
        rw [hpipeline]
        rfl
      rw [hsearch]
      exact oneRound_of_nothing env root config
        (expandRoot_noViable env root config.coordinator hpipeline) detail
  | success continuation subBranches =>
      cases hrequires : requiresHypothesis root (candidateBatch continuation subBranches) with
      | true =>
          exact searchStrategy_agrees_hypothesis env root config hpath continuation subBranches
            hpipeline hrequires hviable
      | false =>
          exact searchStrategy_agrees_plain env root config hpath continuation subBranches
            hpipeline hrequires (hdigest continuation subBranches hpipeline)

/-- A decision under hypotheses without a viable action is where the two
    strategies part. -/
theorem not_sameOutcome_of_zeroViable (config : BeamSearchConfig) (hpath : root.planPath = [])
    (hzero : HypothesisZeroViable env config.coordinator root) :
    ¬ SameOutcome (searchStrategy env config.coordinator root)
      (beamSearchStrategy env config.oneRound root) := by
  rcases (hypothesisZeroViable_iff env config.coordinator root).mp hzero with
    ⟨continuation, subBranches, hpipeline, hrequires, hagg⟩
  have hcases := completedHypothesisRound_cases env config.coordinator 0 0 (rootBeam root)
    (candidateBatch continuation subBranches)
  rw [show (rootBeam root).context = root from rfl, hagg] at hcases
  rw [searchStrategy_hypothesis env config.coordinator root continuation subBranches hpipeline
    hrequires, hagg, oneRound_hypothesis env root config hpath continuation subBranches hpipeline
    hrequires _ hcases]
  cases mainInvariantOk env root with
  | false => exact fun h => h
  | true => exact fun h => h

/-- It is where the beam strategy succeeds with nothing to do. -/
theorem oneRound_zeroViable (config : BeamSearchConfig) (hpath : root.planPath = [])
    (hzero : HypothesisZeroViable env config.coordinator root)
    (hok : mainInvariantOk env root = true) :
    beamSearchStrategy env config.oneRound root = .ok (.success []) := by
  rcases (hypothesisZeroViable_iff env config.coordinator root).mp hzero with
    ⟨continuation, subBranches, hpipeline, hrequires, hagg⟩
  have hcases := completedHypothesisRound_cases env config.coordinator 0 0 (rootBeam root)
    (candidateBatch continuation subBranches)
  rw [show (rootBeam root).context = root from rfl, hagg] at hcases
  rw [oneRound_hypothesis env root config hpath continuation subBranches hpipeline hrequires _
    hcases, hok]
  change Except.ok (SearchResult.success (root.planPath.map plannedStep)) = _
  rw [hpath]
  rfl

/-- The beam strategy refines the single evaluation, and its plans start with a
    candidate of the decision, exactly when the decision is not one that is
    evaluated under hypotheses without a viable root action. -/
theorem beam_refines_iff (config : BeamSearchConfig) (hpath : root.planPath = [])
    (hdigest : ∀ continuation subBranches,
      env.pipeline root = .success continuation subBranches →
      DigestSeparates env.digests root (candidateBatch continuation subBranches)) :
    (SameOutcome (searchStrategy env config.coordinator root)
        (beamSearchStrategy env config.oneRound root) ∧
      ∀ maxRounds, (hpos : 0 < maxRounds) → ∀ plan,
        beamSearchStrategy env (config.withRounds maxRounds hpos) root = .ok (.success plan) →
          plan ≠ [] ∧ Anchored env root plan) ↔
    ¬ HypothesisZeroViable env config.coordinator root := by
  constructor
  · intro ⟨hsame, _⟩ hzero
    exact not_sameOutcome_of_zeroViable env root config hpath hzero hsame
  · intro hviable
    refine ⟨searchStrategy_agrees env root config hpath hdigest hviable, ?_⟩
    intro maxRounds hpos plan hplan
    unfold beamSearchStrategy at hplan
    rw [Except.bind_eq_ok] at hplan
    rcases hplan with ⟨state, hstate, hplan⟩
    have hanchored := commitBeams_anchored env root state plan
      (beamRounds_rooted env config.coordinator root config.beamWidth maxRounds state hpath
        hviable hstate) hplan
    exact ⟨hanchored.ne_nil, hanchored⟩

end Agreement

section OneCandidate

/-- A decision with one candidate, one hypothesis, and workers that all report
    the same. -/
def oneCandidateEnv (candidate : PipelineCandidateRef) (result : BranchResult Unit Unit) :
    SearchEnv Unit Unit where
  digests := kindDigests
  pipeline := fun _ => .success candidate []
  hypothesisContexts := fun context => .ok [{ context with searchHypothesisId := some "rng_h_000" }]
  evaluator := fun _ _ _ pending => .ok (pending.map fun _ => result)
  loadState := fun _ _ _ => .error (.runtimeError "Search pending state is unavailable")
  mainState := none

/-- A card that draws. -/
def drawCandidate : PipelineCandidateRef where
  currentContextSignature := strikeSignature
  semanticAction := ⟨"card", "card:POMMEL_STRIKE"⟩
  targetEnemyIndex := some 0

theorem drawCandidate_zeroViable :
    HypothesisZeroViable (oneCandidateEnv drawCandidate mismatchFault) {} strikeContext := by
  refine ⟨drawCandidate, [], rfl, by decide, by norm_num, _, _, _, rfl, rfl, rfl,
    ?_, .inr (.inl ?_)⟩
  · intro entry hentry
    rw [List.mem_singleton.mp hentry]
    rfl
  · rfl

/-- Where every branch of the only card fails, the single evaluation fails and
    the beam strategy succeeds with nothing to do. -/
theorem beam_empty_plan :
    ¬ ((SameOutcome (searchStrategy (oneCandidateEnv drawCandidate mismatchFault) {} strikeContext)
          (beamSearchStrategy (oneCandidateEnv drawCandidate mismatchFault)
            (BeamSearchConfig.oneRound {}) strikeContext)) ∧
      ∀ maxRounds, (hpos : 0 < maxRounds) → ∀ plan,
        beamSearchStrategy (oneCandidateEnv drawCandidate mismatchFault)
          (BeamSearchConfig.withRounds {} maxRounds hpos) strikeContext = .ok (.success plan) →
            plan ≠ []) := by
  intro ⟨_, hplans⟩
  have hempty := oneRound_zeroViable (oneCandidateEnv drawCandidate mismatchFault) strikeContext {}
    rfl drawCandidate_zeroViable rfl
  exact hplans 1 Nat.one_pos [] hempty rfl

end OneCandidate

section TwoHypotheses

/-- The candidate that ends the turn. -/
def endTurnCandidate : PipelineCandidateRef where
  currentContextSignature := strikeSignature
  semanticAction := ⟨"system", "end_turn"⟩

/-- A hash that tells the contents apart that occur here. -/
def wordDigests : Digests Unit where
  canonicalSnapshot := fun _ => .null
  sha256Hex
    | .obj [_, _, (_, .str (.text hypothesis))] => hypothesis
    | .obj ((_, .str (.text context)) :: (_, .str (.text kind)) ::
        (_, .obj [_, (_, .str (.text key))]) :: _) =>
        String.ofList (context.toList.drop 6 ++ kind.toList.take 3 ++ key.toList)
    | .obj (_ :: (_, .str (.text key)) :: _) => key
    | _ => "context"

/-- A branch that ended the combat. -/
def wonBranch : BranchResult Unit Unit where
  status := .success
  executionMode := .bootstrapStep
  workerId := some 0
  workerGeneration := some 1
  resultSignature := some { strikeSignature with boundary := .terminal, pendingOnly := by decide }
  terminalResult := some ⟨true, "victory"⟩
  oneBoundary := .inl rfl
  success_boundary := fun _ => ⟨_, rfl, by decide, by decide, by decide⟩

/-- A card that draws, or the end of the turn, under two hypotheses. The workers win
    under the first and never get through the prefix under the second. -/
def twoHypothesesEnv : SearchEnv Unit Unit where
  digests := wordDigests
  pipeline := fun _ => .success drawCandidate [endTurnCandidate]
  hypothesisContexts := fun context =>
    .ok [{ context with searchHypothesisId := some "rng_h_000" },
      { context with searchHypothesisId := some "rng_h_001" }]
  evaluator := fun _ _ _ pending => .ok (pending.map fun item =>
    if item.searchHypothesisId = some "rng_h_000" then wonBranch else mismatchFault)
  loadState := fun _ _ _ => .error (.runtimeError "Search pending state is unavailable")
  mainState := none

theorem wordDigests_separates :
    DigestSeparates wordDigests strikeContext [drawCandidate, endTurnCandidate] := by
  rintro _ ⟨kind, candidate, hcandidate, rfl⟩ _ ⟨kind', candidate', hcandidate', rfl⟩
  rcases List.mem_pair.mp hcandidate with rfl | rfl <;>
    rcases List.mem_pair.mp hcandidate' with rfl | rfl <;>
      cases kind <;> cases kind' <;> decide

/-- Half of the samples of either card are there, and that is enough. -/
theorem twoHypotheses_viable : ¬ HypothesisZeroViable twoHypothesesEnv {} strikeContext := by
  rintro ⟨continuation, subBranches, hpipeline, -, -, items, finals, entries, hitems, hfinals,
    hentries, -, hcovered⟩
  cases hpipeline
  cases hitems
  cases hfinals
  cases hentries
  rcases hcovered with hnone | hnone | hfew
  · exact absurd hnone (by decide)
  · exact absurd hnone (by decide)
  · exact absurd (hfew _ List.mem_cons_self) (by decide +kernel)

/-- Where some branches fault and enough do not, the strategies agree. -/
theorem beam_refines_drawing :
    SameOutcome (searchStrategy twoHypothesesEnv {} strikeContext)
        (beamSearchStrategy twoHypothesesEnv (BeamSearchConfig.oneRound {}) strikeContext) ∧
      ∀ maxRounds, (hpos : 0 < maxRounds) → ∀ plan,
        beamSearchStrategy twoHypothesesEnv (BeamSearchConfig.withRounds {} maxRounds hpos)
          strikeContext = .ok (.success plan) →
            plan ≠ [] ∧ Anchored twoHypothesesEnv strikeContext plan := by
  refine (beam_refines_iff twoHypothesesEnv strikeContext {} rfl ?_).mpr twoHypotheses_viable
  intro continuation subBranches hpipeline
  cases hpipeline
  exact wordDigests_separates

end TwoHypotheses

end Combat

end STS2RL
