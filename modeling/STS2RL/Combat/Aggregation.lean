import STS2RL.Core.PyNumber
import STS2RL.Combat.BranchResult
import Mathlib.Algebra.Order.Field.Rat
import Mathlib.Data.List.Dedup
import Mathlib.Data.Rat.Floor

/-!
# Aggregation and the Commit Decision

From the final entries of a batch to the action the search commits to.

Every entry becomes a log entry under the key of its root action. A plain batch
is decided by its best successful entry. A batch under hypotheses is decided by
the mean over all hypotheses, in which a root action's missing samples count as
the worst sample of the round, and a root action with too few samples is left
out. Scores are exact rationals; how many samples are enough is counted in floats.

## Main definitions

* `BranchDecisionLogEntry`, `toDecisionLogEntry`: What is logged of an entry.
* `aggregateHypothesisResults`, `aggregatePlainResults`: The viable actions.
* `buildCommitDecision`: The decision over them.

## Theorems

* `toDecisionLogEntry_eq_ok`: What an entry keeps of its item and result.
* `aggregateHypothesisResults_representative`, `aggregatePlainResults_representative`:
  A viable action is represented by an entry of the batch.
* `aggregateHypothesisResults_eq_nil`: When no root action is viable.
* `aggregatePlainResults_sorted`: Viable actions of a plain batch are in order.
-/

namespace STS2RL

namespace Combat

variable {κ β : Type}

/-- `_semantic_action_key`. -/
def semanticActionKey (digests : Digests κ) (action : SemanticAction)
    (targetIndex targetEnemyIndex : Option Int) : String :=
  String.ofList ((digests.sha256Hex
    (.obj [jsonMember "action_type" (.str action.actionType),
      jsonMember "semantic_key" (.str action.semanticKey),
      jsonMember "target_index" (intOrNull targetIndex),
      jsonMember "target_enemy_index" (intOrNull targetEnemyIndex)])).toList.take 20)

/-- How a branch entered the log. -/
inductive DecisionLogStatus where
  | success
  | validationRejected
  | replayMismatch
  | actionFault
  | timeout
  | coverageFailed
  | diagnosticOnly
  deriving DecidableEq, Repr

/-- `_DECISION_LOG_STATUS_BY_FAULT`. -/
def decisionLogStatusByFault : FaultKind → DecisionLogStatus
  | .validationRejection => .validationRejected
  | .replayMismatch => .replayMismatch
  | .actionFault => .actionFault
  | .taskTimeout => .timeout
  | .postTeardownRestoreFailure => .diagnosticOnly
  | .workerProcessCrash => .diagnosticOnly
  | .depthCapExceeded => .diagnosticOnly
  | .zeroCandidates => .coverageFailed
  | .snapshotMoveMissing => .validationRejected

/-- What is logged of one final entry. -/
structure BranchDecisionLogEntry where
  status : DecisionLogStatus
  rootActionKey : String
  hypothesisId : Option String
  workId : String
  workItemState : WorkItemState
  score : Option ℚ := none
  semanticAction : Option SemanticAction := none
  targetIndex : Option Int := none
  targetEnemyIndex : Option Int := none
  resultSignature : Option DecisionSignature := none
  faultKind : Option FaultKind := none
  score_isSome : workItemState = .finalSuccess → score.isSome
  deriving DecidableEq

/-- The status, score and fault kind a result is logged with. -/
def logOutcome (item : WorkItem κ β) (result : BranchResult κ β) :
    Except PyException (DecisionLogStatus × Option ℚ × Option FaultKind) :=
  match result.status with
  | .success => pure (.success, some item.candidate.score, none)
  | .fault => do
      let kind ← classifyFault result.diagnostics
      pure (decisionLogStatusByFault kind, none, some kind)

/-- `to_decision_log_entry`, for a result of this very item. -/
def toDecisionLogEntry (digests : Digests κ) (item : WorkItem κ β) (result : BranchResult κ β)
    (workItemState : WorkItemState) : Except PyException BranchDecisionLogEntry := do
  let (status, score, faultKind) ← logOutcome item result
  if hscore : workItemState = .finalSuccess → score.isSome then
    pure
      { status
        rootActionKey := semanticActionKey digests item.candidate.semanticAction
          item.candidate.targetIndex item.candidate.targetEnemyIndex
        hypothesisId := item.searchHypothesisId
        workId := item.workId
        workItemState
        score
        semanticAction := some item.candidate.semanticAction
        targetIndex := item.candidate.targetIndex
        targetEnemyIndex := item.candidate.targetEnemyIndex
        resultSignature := result.resultSignature
        faultKind
        score_isSome := hscore }
  else .error (.valueError "FinalSuccess log entries require score")

/-- What the samples of a first action come to. -/
structure RootActionAggregation where
  rootActionKey : String
  aggregateScore : ℚ
  representativeEntry : BranchDecisionLogEntry
  validSampleCount : Nat
  totalHypotheses : Nat
  missingSampleCount : Nat
  filledScore : Option ℚ := none
  deriving DecidableEq

/-- The viable root actions, best first. -/
structure AggregationResult where
  viableActions : List RootActionAggregation

/-- `best_action`. -/
def AggregationResult.bestAction (aggregation : AggregationResult) :
    Option RootActionAggregation :=
  aggregation.viableActions.head?

/-- Only entries whose work has ended are aggregated. -/
def requireFinalEntries (entries : List BranchDecisionLogEntry) : Except PyException Unit :=
  if entries.all (·.workItemState.isFinal) then pure ()
  else .error (.valueError "aggregation accepts only FinalSuccess/FinalFault entries")

/-- The entries that count as samples. -/
def successEntries (entries : List BranchDecisionLogEntry) : List BranchDecisionLogEntry :=
  entries.filter fun entry => entry.workItemState = .finalSuccess ∧ entry.status = .success

/-- The score of a successful entry. -/
def BranchDecisionLogEntry.value (entry : BranchDecisionLogEntry) : ℚ := entry.score.getD 0

/-- Keep the better of two samples of one hypothesis. -/
def addSample (samples : Dict String BranchDecisionLogEntry) (entry : BranchDecisionLogEntry) :
    Dict String BranchDecisionLogEntry :=
  match entry.hypothesisId with
  | none => samples
  | some hypothesis =>
      match samples.get? hypothesis with
      | none => samples.set hypothesis entry
      | some current =>
          if current.value < entry.value then samples.set hypothesis entry else samples

/-- The samples of one root action, by hypothesis. -/
def samplesOf (rootActionKey : String) (valid : List BranchDecisionLogEntry) :
    Dict String BranchDecisionLogEntry :=
  (valid.filter (·.rootActionKey = rootActionKey)).foldl addSample Dict.empty

/-- The first sample that no other beats by score, then by work id. -/
def representative : List BranchDecisionLogEntry → Option BranchDecisionLogEntry
  | [] => none
  | entry :: rest => some (rest.foldl (fun best other =>
      if best.value < other.value ∨ best.value = other.value ∧ best.workId < other.workId then other
      else best) entry)

/-- The least score, `min` of a non-empty list. -/
def worstScore : List BranchDecisionLogEntry → ℚ
  | [] => 0
  | entry :: rest => rest.foldl (fun worst other => min worst other.value) entry.value

/-- The hypotheses of the entries, each once. -/
def allHypotheses (entries : List BranchDecisionLogEntry) : List String :=
  (entries.filterMap (·.hypothesisId)).dedup

/-- The first actions of the entries, sorted. -/
def allRoots (entries : List BranchDecisionLogEntry) : List String :=
  (entries.map (·.rootActionKey)).dedup.mergeSort fun a b => decide (a ≤ b)

/-- `math.ceil(total_hypotheses * min_coverage_fraction)`. The product is one of
    floats, so it is rounded before `ceil` sees it. -/
def requiredSamples (total : Nat) (minCoverageFraction : ℚ) : Int :=
  ⌈PyNumber.nearestDouble (PyNumber.nearestDouble total * minCoverageFraction)⌉

-- A fifth, as a float, is a little more than a fifth; five of them are rounded to one.
example : requiredSamples 5 (PyNumber.nearestDouble (1 / 5)) = 1 := by decide +kernel

/-- One root action: nothing if it has too few samples. `max` raises where there
    are enough samples but none. -/
def aggregateRoot (total : Nat) (required : Int) (worst : ℚ) (rootActionKey : String)
    (samples : List BranchDecisionLogEntry) : Except PyException (Option RootActionAggregation) :=
  if (samples.length : Int) < required then pure none
  else
    match representative samples with
    | none => .error (.valueError "max() arg is an empty sequence")
    | some best =>
        let missing := total - samples.length
        pure (some
          { rootActionKey
            aggregateScore := ((samples.map (·.value)).sum + missing * worst) / total
            representativeEntry := best
            validSampleCount := samples.length
            totalHypotheses := total
            missingSampleCount := missing
            filledScore := if missing = 0 then none else some worst })

/-- Better score first, then the smaller key. -/
def rootLe (a b : RootActionAggregation) : Bool :=
  decide (b.aggregateScore < a.aggregateScore ∨
    a.aggregateScore = b.aggregateScore ∧ a.rootActionKey ≤ b.rootActionKey)

/-- `aggregate_hypothesis_results`. -/
def aggregateHypothesisResults (minCoverageFraction : ℚ) (entries : List BranchDecisionLogEntry) :
    Except PyException AggregationResult := do
  if ¬ (0 ≤ minCoverageFraction ∧ minCoverageFraction ≤ 1) then
    .error (.valueError "min_coverage_fraction must be between 0 and 1")
  else
    requireFinalEntries entries
    let total := (allHypotheses entries).length
    let valid := successEntries entries
    if total = 0 ∨ valid = [] then pure ⟨[]⟩
    else
      let viable ← (allRoots entries).mapM fun root =>
        aggregateRoot total (requiredSamples total minCoverageFraction) (worstScore valid) root
          ((samplesOf root valid).entries.map (·.2))
      pure ⟨(viable.filterMap id).mergeSort rootLe⟩

/-- Better score first, then the smaller root key, then the smaller work id. -/
def plainLe (a b : BranchDecisionLogEntry) : Bool :=
  decide (b.value < a.value ∨ a.value = b.value ∧
    (a.rootActionKey < b.rootActionKey ∨
      a.rootActionKey = b.rootActionKey ∧ a.workId ≤ b.workId))

/-- `aggregate_plain_results`. -/
def aggregatePlainResults (entries : List BranchDecisionLogEntry) :
    Except PyException AggregationResult := do
  requireFinalEntries entries
  pure ⟨((successEntries entries).mergeSort plainLe).map fun entry =>
    { rootActionKey := entry.rootActionKey
      aggregateScore := entry.value
      representativeEntry := entry
      validSampleCount := 1
      totalHypotheses := 1
      missingSampleCount := 0 }⟩

/-- One step of a plan. -/
structure PlannedStep where
  semanticAction : SemanticAction
  targetIndex : Option Int
  targetEnemyIndex : Option Int
  expectedSignature : Option DecisionSignature
  deriving DecidableEq

/-- What the coordinator is told to do. -/
inductive CommitDecision where
  | success (plannedSequence : List PlannedStep)
  | evaluationFailure (detail : String)
  | mainFault (detail : String)
  deriving DecidableEq

/-- `build_commit_decision`. The invariant is checked only once something is to
    be committed. -/
def buildCommitDecision (aggregation : AggregationResult) (hypothesisInvolved : Bool)
    (verifyMainInvariant : Bool) : Except PyException CommitDecision :=
  match aggregation.bestAction with
  | none => .ok (.evaluationFailure "search evaluation produced zero viable Root Actions")
  | some best =>
      if ¬ verifyMainInvariant then
        .ok (.mainFault "Main state identity changed during search aggregation")
      else
        match best.representativeEntry.semanticAction with
        | none => .error (.valueError "best aggregation entry does not carry a semantic_action")
        | some action => .ok (.success
            [{ semanticAction := action
               targetIndex := best.representativeEntry.targetIndex
               targetEnemyIndex := best.representativeEntry.targetEnemyIndex
               expectedSignature :=
                 if hypothesisInvolved then none else best.representativeEntry.resultSignature }])

/-- What an entry keeps of its item and result. -/
theorem toDecisionLogEntry_eq_ok (digests : Digests κ) (item : WorkItem κ β)
    (result : BranchResult κ β) (state : WorkItemState) (entry : BranchDecisionLogEntry)
    (h : toDecisionLogEntry digests item result state = .ok entry) :
    entry.workId = item.workId ∧ entry.semanticAction = some item.candidate.semanticAction ∧
      entry.targetIndex = item.candidate.targetIndex ∧
      entry.targetEnemyIndex = item.candidate.targetEnemyIndex ∧
      entry.resultSignature = result.resultSignature ∧
      (entry.status = .success → result.status = .success) := by
  unfold toDecisionLogEntry logOutcome at h
  -- The entry copies what it reports; only its status depends on how the branch ended.
  cases hstatus : result.status with
  | success =>
      rw [hstatus] at h
      dsimp only [bind, Except.bind, pure, Except.pure] at h
      split at h
      · cases h
        exact ⟨rfl, rfl, rfl, rfl, rfl, fun _ => rfl⟩
      · cases h
  | fault =>
      rw [hstatus] at h
      cases hclass : classifyFault result.diagnostics with
      | error e =>
          rw [hclass] at h
          cases h
      | ok kind =>
          rw [hclass] at h
          dsimp only [bind, Except.bind, pure, Except.pure] at h
          split at h
          · cases h
            refine ⟨rfl, rfl, rfl, rfl, rfl, fun hlog => ?_⟩
            -- No kind of fault is logged as a success.
            cases kind <;> cases hlog
          · cases h

/-- The representative is one of the entries. -/
theorem foldl_better_mem (entries : List BranchDecisionLogEntry) :
    ∀ best : BranchDecisionLogEntry,
      entries.foldl (fun best other =>
        if best.value < other.value ∨ best.value = other.value ∧ best.workId < other.workId
        then other else best) best ∈ best :: entries := by
  induction entries with
  | nil => exact fun best => List.mem_singleton.mpr rfl
  | cons entry rest ih =>
      intro best
      rw [List.foldl_cons]
      by_cases hbetter : best.value < entry.value ∨
          best.value = entry.value ∧ best.workId < entry.workId
      · rw [if_pos hbetter]
        exact List.mem_cons_of_mem best (ih entry)
      · rw [if_neg hbetter]
        rcases List.mem_cons.mp (ih best) with heq | hrest
        · rw [heq]
          exact List.mem_cons_self
        · exact List.mem_cons_of_mem best (List.mem_cons_of_mem entry hrest)

theorem representative_mem (samples : List BranchDecisionLogEntry)
    (entry : BranchDecisionLogEntry) (h : representative samples = some entry) :
    entry ∈ samples := by
  cases samples with
  | nil => cases h
  | cons first rest =>
      rw [← Option.some.inj h]
      exact foldl_better_mem rest first

/-- A sample is an entry of its hypothesis, with a value. -/
theorem foldl_addSample_mem (valid : List BranchDecisionLogEntry) :
    ∀ (samples : Dict String BranchDecisionLogEntry) (hypothesis : String)
      (entry : BranchDecisionLogEntry),
      (valid.foldl addSample samples).get? hypothesis = some entry →
      entry ∈ valid ∨ samples.get? hypothesis = some entry := by
  -- The induction is on the entries, with the samples that are stored before them.
  induction valid with
  | nil => exact fun samples hypothesis entry h => .inr h
  | cons first rest ih =>
      intro samples hypothesis entry h
      rcases ih (addSample samples first) hypothesis entry h with hrest | hsample
      · exact .inl (List.mem_cons_of_mem first hrest)
      · -- The first entry was stored, or the samples are as they were.
        have hcases : addSample samples first = samples ∨
            ∃ own, addSample samples first = samples.set own first := by
          unfold addSample
          split
          · exact .inl rfl
          · split
            · exact .inr ⟨_, rfl⟩
            · split
              · exact .inr ⟨_, rfl⟩
              · exact .inl rfl
        rcases hcases with hsame | ⟨own, hset⟩
        · rw [hsame] at hsample
          exact .inr hsample
        · rw [hset, Dict.get?_set] at hsample
          split at hsample
          · rw [← Option.some.inj hsample]
            exact .inl List.mem_cons_self
          · exact .inr hsample

theorem samplesOf_mem (rootActionKey : String) (valid : List BranchDecisionLogEntry)
    (entry : BranchDecisionLogEntry)
    (h : entry ∈ (samplesOf rootActionKey valid).entries.map (·.2)) : entry ∈ valid := by
  rcases List.mem_map.mp h with ⟨⟨hypothesis, sample⟩, hmem, rfl⟩
  have hget := (Dict.mem_entries_iff _ hypothesis sample).mp hmem
  rcases foldl_addSample_mem _ _ _ _ hget with hvalid | hnone
  · exact (List.mem_filter.mp hvalid).1
  · cases hnone

/-- Under how many hypotheses a root action succeeded. -/
def sampleCount (rootActionKey : String) (entries : List BranchDecisionLogEntry) : Nat :=
  (((successEntries entries).filter (·.rootActionKey = rootActionKey)).filterMap
    (·.hypothesisId)).dedup.length

/-- A sample is kept for every hypothesis of a sampled entry. -/
theorem addSample_isSome (samples : Dict String BranchDecisionLogEntry)
    (entry : BranchDecisionLogEntry) (hypothesis : String) :
    ((addSample samples entry).get? hypothesis).isSome =
      (entry.hypothesisId == some hypothesis || (samples.get? hypothesis).isSome) := by
  unfold addSample
  cases hentry : entry.hypothesisId with
  | none => simp
  | some own =>
      dsimp only
      by_cases hown : own = hypothesis
      · -- Stored, or a better one is there already.
        subst hown
        cases hcurrent : samples.get? own with
        | none => simp
        | some current =>
            by_cases hbetter : current.value < entry.value
            · simp [hbetter]
            · simp [hbetter, hcurrent]
      · have hother : ∀ value : BranchDecisionLogEntry,
            (samples.set own value).get? hypothesis = samples.get? hypothesis :=
          fun value => Dict.get?_set_ne samples value (Ne.symm hown)
        cases hcurrent : samples.get? own with
        | none => simp [hother, hown]
        | some current =>
            by_cases hbetter : current.value < entry.value
            · simp [hbetter, hother, hown]
            · simp [hbetter, hown]

theorem foldl_addSample_isSome (valid : List BranchDecisionLogEntry) (hypothesis : String) :
    ∀ samples : Dict String BranchDecisionLogEntry,
      ((valid.foldl addSample samples).get? hypothesis).isSome = true ↔
        hypothesis ∈ valid.filterMap (·.hypothesisId) ∨
          (samples.get? hypothesis).isSome = true := by
  induction valid with
  | nil => simp
  | cons entry rest ih =>
      intro samples
      rw [List.foldl_cons, ih, addSample_isSome]
      simp only [List.mem_filterMap, List.mem_cons, Bool.or_eq_true, beq_iff_eq,
        exists_eq_or_imp]
      rw [or_assoc, or_left_comm]

/-- The samples of a root action are one for each hypothesis it succeeded under. -/
theorem samplesOf_length (rootActionKey : String) (entries : List BranchDecisionLogEntry) :
    ((samplesOf rootActionKey (successEntries entries)).entries.map (·.2)).length =
      sampleCount rootActionKey entries := by
  have hperm : (samplesOf rootActionKey (successEntries entries)).keys.Perm
      (((successEntries entries).filter (·.rootActionKey = rootActionKey)).filterMap
        (·.hypothesisId)).dedup := by
    apply (List.perm_ext_iff_of_nodup (Dict.nodup _) (List.nodup_dedup _)).mpr
    intro hypothesis
    rw [List.mem_dedup]
    have hsome := foldl_addSample_isSome
      ((successEntries entries).filter (·.rootActionKey = rootActionKey)) hypothesis Dict.empty
    simp only [Dict.get?_empty, Option.isSome_none, Bool.false_eq_true, or_false] at hsome
    rw [← hsome, Option.isSome_iff_exists]
    exact Dict.mem_keys_iff _ hypothesis
  have hlength := hperm.length_eq
  simpa [Dict.keys, sampleCount] using hlength

/-- No root action of the batch succeeded under enough of its hypotheses. -/
def NoRootCovered (minCoverageFraction : ℚ) (entries : List BranchDecisionLogEntry) : Prop :=
  allHypotheses entries = [] ∨ successEntries entries = [] ∨
    ∀ entry ∈ entries, (sampleCount entry.rootActionKey entries : Int) <
      requiredSamples (allHypotheses entries).length minCoverageFraction

/-- A root action is left out because it has fewer samples than required. -/
theorem aggregateRoot_eq_none (total : Nat) (required : Int) (worst : ℚ) (rootActionKey : String)
    (samples : List BranchDecisionLogEntry) :
    aggregateRoot total required worst rootActionKey samples = .ok none ↔
      (samples.length : Int) < required := by
  unfold aggregateRoot
  by_cases hfew : (samples.length : Int) < required
  · rw [if_pos hfew]
    exact ⟨fun _ => hfew, fun _ => rfl⟩
  · rw [if_neg hfew]
    refine ⟨fun h => ?_, fun h => absurd h hfew⟩
    cases hbest : representative samples with
    | none =>
        rw [hbest] at h
        cases h
    | some best =>
        rw [hbest] at h
        cases h

/-- A batch under hypotheses comes out without a viable action exactly when no
    root action is covered. -/
theorem aggregateHypothesisResults_eq_nil (minCoverageFraction : ℚ)
    (entries : List BranchDecisionLogEntry) :
    aggregateHypothesisResults minCoverageFraction entries = .ok ⟨[]⟩ ↔
      (0 ≤ minCoverageFraction ∧ minCoverageFraction ≤ 1) ∧
      (∀ entry ∈ entries, entry.workItemState.isFinal = true) ∧
      NoRootCovered minCoverageFraction entries := by
  unfold aggregateHypothesisResults requireFinalEntries
  by_cases hfraction : 0 ≤ minCoverageFraction ∧ minCoverageFraction ≤ 1
  · rw [if_neg (not_not.mpr hfraction)]
    by_cases hfinal : entries.all (·.workItemState.isFinal) = true
    · rw [if_pos hfinal]
      change (if _ then _ else _) = _ ↔ _
      rw [List.all_eq_true] at hfinal
      simp only [hfraction, true_and]
      rw [and_iff_right hfinal]
      unfold NoRootCovered
      -- Without hypotheses or successes nothing is aggregated; else each root is, and is left
      -- out exactly if it is not covered.
      by_cases hempty : (allHypotheses entries).length = 0 ∨ successEntries entries = []
      · rw [if_pos hempty]
        refine ⟨fun _ => ?_, fun _ => rfl⟩
        rcases hempty with hnone | hnone
        · exact .inl (List.length_eq_zero_iff.mp hnone)
        · exact .inr (.inl hnone)
      · rw [if_neg hempty]
        rw [not_or, List.length_eq_zero_iff] at hempty
        simp only [hempty, false_or]
        constructor
        -- An empty result leaves out the root of every entry.
        · intro h entry hentry
          rw [Except.bind_eq_ok] at h
          rcases h with ⟨viable, hviable, h⟩
          have hnil : (viable.filterMap id).mergeSort rootLe = [] :=
            congrArg AggregationResult.viableActions (Except.ok.inj h)
          have hnone : viable.filterMap id = [] := by
            have hlength := congrArg List.length hnil
            rw [List.length_mergeSort] at hlength
            exact List.length_eq_zero_iff.mp hlength
          have hroot : entry.rootActionKey ∈ allRoots entries := by
            rw [allRoots, List.mem_mergeSort, List.mem_dedup]
            exact List.mem_map_of_mem hentry
          rcases Except.ok_of_mem_mapM _ _ _ hviable _ hroot with ⟨found, hfound, haggregate⟩
          have hfound' : found = none := List.filterMap_eq_nil_iff.mp hnone found hfound
          rw [hfound', aggregateRoot_eq_none, samplesOf_length] at haggregate
          exact haggregate
        -- If every root is left out, aggregating raises nothing and leaves nothing.
        · intro h
          have hall : ∀ root ∈ allRoots entries, aggregateRoot (allHypotheses entries).length
              (requiredSamples (allHypotheses entries).length minCoverageFraction)
              (worstScore (successEntries entries)) root
              ((samplesOf root (successEntries entries)).entries.map (·.2)) = .ok none := by
            intro root hroot
            rw [allRoots, List.mem_mergeSort, List.mem_dedup] at hroot
            rcases List.mem_map.mp hroot with ⟨entry, hentry, rfl⟩
            rw [aggregateRoot_eq_none, samplesOf_length]
            exact h entry hentry
          rcases Except.mapM_isOk _ _ fun root hroot => ⟨none, hall root hroot⟩ with
            ⟨viable, hviable⟩
          have hnone : viable.filterMap id = [] := by
            apply List.filterMap_eq_nil_iff.mpr
            intro found hfound
            rcases Except.exists_of_mem_mapM _ _ _ hviable found hfound with ⟨root, hroot, hok⟩
            rw [hall root hroot] at hok
            exact (Except.ok.inj hok).symm
          rw [hviable]
          change Except.ok _ = _
          rw [hnone, List.mergeSort_nil]
    -- Entries that are not final are refused, and so is a fraction that is none.
    · rw [if_neg hfinal]
      refine ⟨fun h => (by cases h), fun h => absurd (List.all_eq_true.mpr h.2.1) hfinal⟩
  · rw [if_pos hfraction]
    exact ⟨fun h => (by cases h), fun h => absurd h.1 hfraction⟩

/-- A viable action of a batch under hypotheses is represented by a successful
    entry of the batch. -/
theorem aggregateHypothesisResults_representative (minCoverageFraction : ℚ)
    (entries : List BranchDecisionLogEntry) (aggregation : AggregationResult)
    (h : aggregateHypothesisResults minCoverageFraction entries = .ok aggregation) :
    ∀ action ∈ aggregation.viableActions, action.representativeEntry ∈ successEntries entries := by
  unfold aggregateHypothesisResults at h
  split at h
  · cases h
  · rw [Except.bind_eq_ok] at h
    rcases h with ⟨-, -, h⟩
    dsimp only at h
    split at h
    · cases h
      intro action haction
      cases haction
    -- An action that is viable comes from its root, and represents it by one of the root's
    -- samples.
    · rw [Except.bind_eq_ok] at h
      rcases h with ⟨viable, hviable, h⟩
      cases h
      intro action haction
      rw [List.mem_mergeSort, List.mem_filterMap] at haction
      rcases haction with ⟨found, hfound, hid⟩
      rw [id] at hid
      rcases Except.exists_of_mem_mapM _ _ _ hviable found hfound with ⟨root, -, hroot⟩
      rw [hid] at hroot
      unfold aggregateRoot at hroot
      split at hroot
      · cases hroot
      · split at hroot
        · cases hroot
        · rename_i best hbest
          cases hroot
          exact samplesOf_mem root _ best (representative_mem _ best hbest)

/-- A viable action of a plain batch is a successful entry with its score. -/
theorem aggregatePlainResults_representative (entries : List BranchDecisionLogEntry)
    (aggregation : AggregationResult) (h : aggregatePlainResults entries = .ok aggregation) :
    ∀ action ∈ aggregation.viableActions, action.representativeEntry ∈ successEntries entries := by
  unfold aggregatePlainResults at h
  rw [Except.bind_eq_ok] at h
  rcases h with ⟨-, -, h⟩
  cases h
  intro action haction
  rcases List.mem_map.mp haction with ⟨entry, hentry, rfl⟩
  exact List.mem_mergeSort.mp hentry

/-- The order of a plain round is transitive. -/
theorem plainLe_trans (a b c : BranchDecisionLogEntry) (hab : plainLe a b = true)
    (hbc : plainLe b c = true) : plainLe a c = true := by
  unfold plainLe at *
  rw [decide_eq_true_eq] at *
  rcases hab with hab | ⟨hab, hkey⟩ <;> rcases hbc with hbc | ⟨hbc, hkey'⟩
  · exact .inl (hbc.trans hab)
  · exact .inl (hbc ▸ hab)
  · exact .inl (hab ▸ hbc)
  · refine .inr ⟨hab.trans hbc, ?_⟩
    rcases hkey with hkey | ⟨hkey, hid⟩ <;> rcases hkey' with hkey' | ⟨hkey', hid'⟩
    · exact .inl (hkey.trans hkey')
    · exact .inl (hkey' ▸ hkey)
    · exact .inl (hkey ▸ hkey')
    · exact .inr ⟨hkey.trans hkey', hid.trans hid'⟩

theorem plainLe_total (a b : BranchDecisionLogEntry) : (plainLe a b || plainLe b a) = true := by
  unfold plainLe
  rw [Bool.or_eq_true, decide_eq_true_eq, decide_eq_true_eq]
  rcases lt_trichotomy a.value b.value with hlt | heq | hgt
  · exact .inr (.inl hlt)
  · rcases lt_trichotomy a.rootActionKey b.rootActionKey with hkey | hkey | hkey
    · exact .inl (.inr ⟨heq, .inl hkey⟩)
    · rcases le_total a.workId b.workId with hid | hid
      · exact .inl (.inr ⟨heq, .inr ⟨hkey, hid⟩⟩)
      · exact .inr (.inr ⟨heq.symm, .inr ⟨hkey.symm, hid⟩⟩)
    · exact .inr (.inr ⟨heq.symm, .inl hkey⟩)
  · exact .inl (.inl hgt)

/-- The viable actions of a plain batch are in order of score and key. -/
theorem aggregatePlainResults_sorted (entries : List BranchDecisionLogEntry)
    (aggregation : AggregationResult) (h : aggregatePlainResults entries = .ok aggregation) :
    aggregation.viableActions.Pairwise fun a b => rootLe a b = true := by
  unfold aggregatePlainResults at h
  rw [Except.bind_eq_ok] at h
  rcases h with ⟨-, -, h⟩
  cases h
  refine List.pairwise_map.mpr (List.Pairwise.imp ?_
    (List.pairwise_mergeSort plainLe_trans plainLe_total (successEntries entries)))
  intro a b hab
  unfold plainLe at hab
  unfold rootLe
  rw [decide_eq_true_eq] at *
  rcases hab with hab | ⟨hab, hkey | ⟨hkey, -⟩⟩
  · exact .inl hab
  · exact .inr ⟨hab, le_of_lt hkey⟩
  · exact .inr ⟨hab, le_of_eq hkey⟩

end Combat

end STS2RL
