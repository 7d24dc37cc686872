import STS2RL.Api.PyValue
import STS2RL.Combat.WorkItem

/-!
# Candidates of a Decision

What the search may branch on at a decision: one candidate for each legal action,
scored by a cheap rule, ranked, cut to a width, and split into the one to go on
with and its siblings. A caller who knows the candidates names them by their place
instead, and nothing is scored.

The rules never see the board. They are handed an observation, in which a pile is
its size and how often each card occurs, and the candidate. So two boards that
differ in the order of their piles give the same candidates in the same order: the
hand and the pending choice are read as they are, the piles through `len` and a
count. A pile that cannot be counted raises in either order, though the exception
is that of the first card that is wrong.

A candidate is named by the kind and the semantic key of its action. Whoever plays
it looks the pair up among the legal actions of the decision, and finds one: the
action the candidate was made from, or one before it with the same pair.

## Main definitions

* `LegalActionRecord`, `CurrentDecision`: What the pipeline is given.
* `Candidate`, `OrderMaskedObservation`: What it makes of it.
* `buildCandidatePipelineResult`: The candidates, scored and cut.
* `buildCandidatePipelineResultForExplicitCandidates`: The candidates named.
* `SamePileOrder`: Boards that differ in the order of their piles.
* `Resolvable`: What a candidate refers to is legal.

## Theorems

* `buildOrderMaskedObservation_agree`: What is observed of two such boards.
* `extractCandidates_refersTo`: Every candidate refers to an action of the decision.
* `candidates_blind_to_piles`: The law.
-/

namespace STS2RL

namespace Combat

open Api (Fields getField truthy pyGet pyGetD orElse pyLen pyEq intOrNone intOf typeName
  identityPart)

/-- A legal action, as `legal_action_to_dict` gives it. -/
structure LegalActionRecord where
  actionId : Int
  actionType : String
  label : String
  isAvailable : Bool
  parameters : Json
  semanticKey : String
  deriving DecidableEq

/-- What is looked at when an action is resolved. -/
def LegalActionRecord.legal (action : LegalActionRecord) : LegalAction :=
  { actionId := action.actionId
    actionType := action.actionType
    semanticKey := action.semanticKey }

/-- The part of a decision context that the pipeline reads. -/
structure CurrentDecision where
  engineState : Fields
  cachedLegalActions : Option (List LegalActionRecord)
  currentContextSignature : DecisionSignature

/-- One unexecuted candidate. -/
structure Candidate where
  semanticAction : SemanticAction
  choiceKind : String
  choiceScope : ChoiceScope
  legalActionIndex : Nat
  label : String
  targetIndex : Option Int
  targetEnemyIndex : Option Int
  cardCost : Option Int
  potionSlot : Option Int
  cardType : Json
  cardRarity : Json

/-- How often each value occurs. -/
abbrev Counts := List (Json × Nat)

/-- What a rule sees of a board. -/
structure OrderMaskedObservation where
  handSize : Nat
  drawPileSize : Nat
  discardPileSize : Nat
  exhaustPileSize : Nat
  playPileSize : Nat
  aliveEnemyCount : Nat
  playerEnergy : Int
  handCardIdCounts : Counts
  handCardTypeCounts : Counts
  drawPileCardIdCounts : Counts
  discardPileCardIdCounts : Counts
  exhaustPileCardIdCounts : Counts
  pendingChoiceType : Json
  pendingMinSelect : Option Int
  pendingMaxSelect : Option Int
  pendingSelectedCount : Int

/-- A score is a double; here it is the number that the double stands for. -/
structure ScoredCandidate where
  candidate : Candidate
  score : Rat
  evaluatorName : String

/-- What the pipeline leaves of the candidates. -/
inductive PipelineResult where
  | success (continuationCandidate : PipelineCandidateRef)
      (subBranchCandidates : List PipelineCandidateRef)
      (rankedCandidates prunedCandidates : List ScoredCandidate)
      (observation : OrderMaskedObservation)
  | noViableCandidates (detail : String) (rankedCandidates : List ScoredCandidate)
      (observation : OrderMaskedObservation)

/-!
### Extraction

Candidates are read off the decision: the cards of the hand and the actions that are
offered, each with what its card says.
-/

section Extraction

/-- `_legal_actions_from_current_result`. -/
def CurrentDecision.legalActions (current : CurrentDecision) : List LegalActionRecord :=
  current.cachedLegalActions.getD []

/-- `next(card for card in cards if card.get("id") == card_id)`, if there is one. -/
def firstWithId (cardId : Json) : List Json → Except PyException (Option Json)
  | [] => .ok none
  | card :: rest => do
      let id ← pyGet card "id"
      if pyEq id cardId then .ok (some card) else firstWithId cardId rest

/-- `_card_feature_by_id`. -/
def cardFeatureById (engineState : Fields) (cardId : Json) : Except PyException Json :=
  if cardId = .null then .ok (.obj [])
  else do
    let hand ← Api.iterate (orElse (getField engineState "hand") (.list []))
    match ← firstWithId cardId hand with
    | some card => .ok card
    | none =>
        let options ← pyGet (orElse (getField engineState "pendingChoice") (.obj [])) "options"
        let found ← firstWithId cardId (← Api.iterate (orElse options (.list [])))
        .ok (found.getD (.obj []))

/-- `is_action_continuation_pending_choice`. Each of the fields of the metadata is
    read, and two of them looked at. -/
def isActionContinuationPendingChoiceOf (engineState : Fields) : Except PyException Bool :=
  let pending := orElse (getField engineState "pendingChoice") (.obj [])
  if ¬ truthy pending then .ok false
  else do
    let scope ← pyGet pending "scope"
    let scenarioRestorable ← pyGet pending "scenarioRestorable"
    .ok (scope = .str (.text "ActionContinuation") || scenarioRestorable = .bool false)

/-- `_choice_scope_from_current_result`. -/
def choiceScopeFromCurrentResult (engineState : Fields) (legalActions : List LegalActionRecord) :
    Except PyException ChoiceScope := do
  if ← isActionContinuationPendingChoiceOf engineState then .ok .actionContinuation
  else if legalActions.any fun action => action.actionType = "choice_target" then
    .ok .actionContinuation
  else .ok .topLevel

/-- The cost that the action gives, or else the card. -/
def costOf (params cardFeature : Json) : Except PyException Json := do
  let cost ← pyGet params "cost"
  if cost ≠ .null then .ok cost else pyGet cardFeature "cost"

/-- The candidate of the action at a place. -/
def extractCandidate (engineState : Fields) (choiceScope : ChoiceScope) (index : Nat)
    (action : LegalActionRecord) : Except PyException Candidate := do
  let params := orElse action.parameters (.obj [])
  let cardId ← pyGet params "cardId"
  let cardFeature ← cardFeatureById engineState cardId
  let targetIndex ← intOrNone (← pyGet params "targetIndex")
  let targetEnemyIndex ← intOrNone (← pyGet params "enemyIndex")
  let cardCost ← intOrNone (← costOf params cardFeature)
  let potionSlot ← intOrNone (← pyGet params "potionSlot")
  .ok {
    semanticAction := ⟨action.actionType, action.semanticKey⟩
    choiceKind := action.actionType
    choiceScope
    legalActionIndex := index
    label := action.label
    targetIndex
    targetEnemyIndex
    cardCost
    potionSlot
    cardType := ← pyGet cardFeature "type"
    cardRarity := ← pyGet cardFeature "rarity" }

/-- `extract_candidates`. -/
def extractCandidates (current : CurrentDecision) : Except PyException (List Candidate) := do
  let choiceScope ← choiceScopeFromCurrentResult current.engineState current.legalActions
  current.legalActions.zipIdx.mapM fun (action, index) =>
    extractCandidate current.engineState choiceScope index action

end Extraction

/-!
### The masked observation

What the scores may look at: counts of cards, and nothing of their order.
-/

section Observation

/-- `c.get(key)`, where `c` counts as something and has one, as it is counted. -/
def countedValue (key : String) (card : Json) : Except PyException (Option Json) :=
  if ¬ truthy card then .ok none
  else do
    let value ← pyGet card key
    if value = .null then .ok none
    else if (identityPart value).isNone then
      .error ⟨"TypeError", "unhashable type: '" ++ typeName value ++ "'"⟩
    else .ok (some value)

/-- `_card_id_counts` and `_card_type_counts`. -/
def cardCounts (key : String) (cards : Json) : Except PyException Counts := do
  let values ← (← Api.iterate (orElse cards (.list []))).mapM (countedValue key)
  .ok (Tally.tally identityPart (values.filterMap id))

/-- How often each card occurs. -/
def cardIdCounts : Json → Except PyException Counts := cardCounts "id"

/-- How often each type of card occurs. -/
def cardTypeCounts : Json → Except PyException Counts := cardCounts "type"

/-- Whether an enemy is alive. One that does not say so is. -/
def isAlive (enemy : Json) : Except PyException Bool :=
  (pyGetD enemy "isAlive" (.bool true)).map truthy

/-- `build_order_masked_observation`. -/
def buildOrderMaskedObservation (state : Fields) : Except PyException OrderMaskedObservation := do
  let hand := orElse (getField state "hand") (.list [])
  let drawPile := orElse (getField state "drawPile") (.list [])
  let discardPile := orElse (getField state "discardPile") (.list [])
  let exhaustPile := orElse (getField state "exhaustPile") (.list [])
  let playPile := orElse (getField state "playPile") (.list [])
  let pending := orElse (getField state "pendingChoice") (.obj [])
  let enemies ← Api.iterate (orElse (getField state "enemies") (.list []))
  let alive ← enemies.mapM isAlive
  let handSize ← pyLen hand
  let drawPileSize ← pyLen drawPile
  let discardPileSize ← pyLen discardPile
  let exhaustPileSize ← pyLen exhaustPile
  let playPileSize ← pyLen playPile
  let playerEnergy ← intOf (orElse (getField state "energy") (.int 0))
  let handCardIdCounts ← cardIdCounts hand
  let handCardTypeCounts ← cardTypeCounts hand
  let drawPileCardIdCounts ← cardIdCounts drawPile
  let discardPileCardIdCounts ← cardIdCounts discardPile
  let exhaustPileCardIdCounts ← cardIdCounts exhaustPile
  let pendingChoiceType ← pyGet pending "choiceType"
  let pendingMinSelect ← intOrNone (← pyGet pending "minSelect")
  let pendingMaxSelect ← intOrNone (← pyGet pending "maxSelect")
  let pendingSelectedCount ← intOf (orElse (← pyGet pending "selectedCount") (.int 0))
  .ok {
    handSize, drawPileSize, discardPileSize, exhaustPileSize, playPileSize
    aliveEnemyCount := alive.count true
    playerEnergy
    handCardIdCounts, handCardTypeCounts
    drawPileCardIdCounts, discardPileCardIdCounts, exhaustPileCardIdCounts
    pendingChoiceType, pendingMinSelect, pendingMaxSelect, pendingSelectedCount }

end Observation

/-!
### Scores

One evaluator for each kind of action.
-/

section Scores

/-- The double nearest to a number. -/
def rounded (q : Rat) : Rat :=
  if q < 0 then - PyNumber.nearestDouble (-q) else PyNumber.nearestDouble q

/-- `float(z)`. -/
def floatOfInt (z : Int) : Except PyException Rat :=
  if PyNumber.overflowsFloat z then
    .error ⟨"OverflowError", "int too large to convert to float"⟩
  else .ok (rounded z)

/-- `score + max(0.0, 3.0 - float(cost))`. -/
def withCheapness (score : Rat) (cost : Int) : Except PyException Rat := do
  let asFloat ← floatOfInt cost
  .ok (rounded (score + max 0 (rounded (3 - asFloat))))

/-- The value is a given text. -/
def isText (value : Json) (text : String) : Bool := value = .str (.text text)

/-- The type of a card that is of no use. -/
def isCurseOrStatus (value : Json) : Bool := isText value "Curse" || isText value "Status"

/-- `_card_score`. -/
def cardScore (observation : OrderMaskedObservation) (candidate : Candidate) :
    Except PyException Rat := do
  let score ← match candidate.cardCost with
    | none => .ok 20
    | some cost => do
        let score ← withCheapness 20 cost
        if observation.playerEnergy < cost then .ok (rounded (score - 4)) else .ok score
  if isText candidate.cardType "Attack" ∧ observation.aliveEnemyCount ≠ 0 then
    .ok (rounded (score + 2))
  else if isText candidate.cardType "Skill" then .ok (rounded (score + 1))
  else if isText candidate.cardType "Power" then .ok (rounded (score + 1 / 2))
  else if isCurseOrStatus candidate.cardType then .ok (rounded (score - 20))
  else .ok score

/-- `_target_score`. -/
def targetScore (_observation : OrderMaskedObservation) (candidate : Candidate) :
    Except PyException Rat :=
  .ok (if candidate.targetEnemyIndex.isSome then 16 else 15)

/-- `_hand_choice_score`. -/
def handChoiceScore (_observation : OrderMaskedObservation) (candidate : Candidate) :
    Except PyException Rat :=
  let byType : Rat := if isCurseOrStatus candidate.cardType then 2 else 12
  let byRarity : Rat :=
    if isText candidate.cardRarity "Rare" then byType + 3
    else if isText candidate.cardRarity "Uncommon" then byType + 2
    else if isText candidate.cardRarity "Common" then byType + 1
    else byType
  match candidate.cardCost with
  | none => .ok byRarity
  | some cost => withCheapness byRarity cost

/-- `_confirm_score`. -/
def confirmScore (observation : OrderMaskedObservation) (candidate : Candidate) :
    Except PyException Rat :=
  .ok (if candidate.choiceKind = "choice_skip" then -5
    else if observation.pendingMinSelect.any fun least =>
      observation.pendingSelectedCount < least then -20
    else 8)

/-- `_other_score`. -/
def otherScore (_observation : OrderMaskedObservation) (candidate : Candidate) :
    Except PyException Rat :=
  .ok (if candidate.choiceKind = "system" then 0
    else if candidate.choiceKind = "potion" then 10
    else 1)

/-- `EVALUATORS_BY_CHOICE_KIND.get(choice_kind, ("other", _other_score))`. -/
def evaluatorOf (choiceKind : String) :
    String × (OrderMaskedObservation → Candidate → Except PyException Rat) :=
  match choiceKind with
  | "card" => ("card", cardScore)
  | "choice_target" => ("target", targetScore)
  | "choice_card" => ("hand", handChoiceScore)
  | "choice_confirm" => ("confirm", confirmScore)
  | "choice_skip" => ("confirm", confirmScore)
  | _ => ("other", otherScore)

/-- `score_candidate`. -/
def scoreCandidate (observation : OrderMaskedObservation) (candidate : Candidate) :
    Except PyException ScoredCandidate := do
  let (evaluatorName, evaluator) := evaluatorOf candidate.choiceKind
  .ok { candidate, score := ← evaluator observation candidate, evaluatorName }

end Scores

/-!
### The pipeline

Candidates are extracted, scored, ranked, pruned and split, and each is handed on by the
index of its action.
-/

section Pipeline

/-- Best first, and by place where the scores are the same. -/
def ranksBefore (a b : ScoredCandidate) : Bool :=
  b.score < a.score ∨
    (a.score = b.score ∧ a.candidate.legalActionIndex ≤ b.candidate.legalActionIndex)

/-- `rank_candidates`. -/
def rankCandidates (observation : OrderMaskedObservation) (candidates : List Candidate) :
    Except PyException (List ScoredCandidate) := do
  let scored ← candidates.mapM (scoreCandidate observation)
  .ok (scored.mergeSort ranksBefore)

/-- `score >= threshold`. Nothing is as large as what is no number. -/
def reaches (score : Rat) (threshold : String) : Bool :=
  match PyNumber.floatValue threshold with
  | some least => least ≤ score
  | none => threshold = "-inf"

/-- `prune_candidates`. -/
def pruneCandidates (candidates : List ScoredCandidate) (width : Int)
    (scoreThreshold : Option String) : List ScoredCandidate :=
  if width ≤ 0 then []
  else (candidates.filter fun scored => scoreThreshold.all (reaches scored.score)).take width.toNat

/-- `_to_pipeline_ref`. -/
def toPipelineRef (signature : DecisionSignature) (scored : ScoredCandidate) :
    PipelineCandidateRef :=
  { currentContextSignature := signature
    semanticAction := scored.candidate.semanticAction
    targetIndex := scored.candidate.targetIndex
    targetEnemyIndex := scored.candidate.targetEnemyIndex
    score := scored.score
    choiceKind := scored.candidate.choiceKind
    choiceScope := scored.candidate.choiceScope.text }

/-- `split_candidates`. -/
def splitCandidates (pruned : List ScoredCandidate) (signature : DecisionSignature) :
    Except PyException (PipelineCandidateRef × List PipelineCandidateRef) :=
  match pruned with
  | [] => .error ⟨"NoViableCandidatesError", "cannot split zero pruned candidates"⟩
  | first :: rest => .ok (toPipelineRef signature first, rest.map (toPipelineRef signature))

/-- Why no candidate is left. -/
def noViableDetail (width : Int) (scoreThreshold : Option String) : String :=
  "no viable candidates after pruning (width=" ++ toString width ++ ", score_threshold=" ++
    scoreThreshold.getD "None" ++ ")"

/-- `build_candidate_pipeline_result`. -/
def buildCandidatePipelineResult (current : CurrentDecision) (width : Int)
    (scoreThreshold : Option String) : Except PyException PipelineResult := do
  let observation ← buildOrderMaskedObservation current.engineState
  let candidates ← extractCandidates current
  let ranked ← rankCandidates observation candidates
  let pruned := pruneCandidates ranked width scoreThreshold
  if pruned.isEmpty then
    .ok (.noViableCandidates (noViableDetail width scoreThreshold) ranked observation)
  else
    let (continuation, subBranches) ← splitCandidates pruned current.currentContextSignature
    .ok (.success continuation subBranches ranked pruned observation)

/-- The error of a candidate that is not on offer. -/
def missingIndexMessage (index : Int) (candidates : List Candidate) : String :=
  "candidate index " ++ toString index ++ " not present among current legal actions " ++
    "(valid indices: " ++ toString (candidates.map Candidate.legalActionIndex) ++ ")"

/-- The candidate with a place, and no score. -/
def selectCandidate (candidates : List Candidate) (index : Int) :
    Except PyException ScoredCandidate :=
  match candidates.find? fun candidate => (candidate.legalActionIndex : Int) = index with
  | some candidate => .ok { candidate, score := 0, evaluatorName := "explicit" }
  | none => .error (.valueError (missingIndexMessage index candidates))

/-- `build_candidate_pipeline_result_for_explicit_candidates`. -/
def buildCandidatePipelineResultForExplicitCandidates (current : CurrentDecision)
    (candidateLegalActionIndices : List Int) : Except PyException PipelineResult :=
  if candidateLegalActionIndices.isEmpty then
    .error (.valueError ("build_candidate_pipeline_result_for_explicit_candidates requires at " ++
      "least one candidate index - it never implicitly expands all Legal Actions"))
  else do
    let observation ← buildOrderMaskedObservation current.engineState
    let allCandidates ← extractCandidates current
    let selected ← candidateLegalActionIndices.mapM (selectCandidate allCandidates)
    let (continuation, subBranches) ← splitCandidates selected current.currentContextSignature
    .ok (.success continuation subBranches selected selected observation)

end Pipeline

/-!
### Piles in another order

Two states that differ in the order of the hidden piles have the same counts, so every
stage of the pipeline comes to the same.
-/

section PileOrder

/-- The piles whose order a player does not know. -/
def hiddenPileKeys : List String := ["drawPile", "discardPile", "exhaustPile", "playPile"]

/-- The same value, or the same cards in another order. -/
def SamePile (a b : Json) : Prop :=
  a = b ∨ ∃ xs ys, a = .list xs ∧ b = .list ys ∧ xs.Perm ys

/-- The same member, or a pile in another order. -/
def SameMember (a b : PyStr × Json) : Prop :=
  a.1 = b.1 ∧ (a.2 = b.2 ∨ (∃ key ∈ hiddenPileKeys, a.1 = .text key) ∧ SamePile a.2 b.2)

/-- Boards that differ in the order of their piles. -/
def SamePileOrder (state state' : Fields) : Prop := List.Forall₂ SameMember state state'

/-- Counts of the same values. A record of counts has no order, and values that
    equal each other are one key. -/
def SameCounts (counts counts' : Counts) : Prop :=
  (counts.map fun counted => (identityPart counted.1, counted.2)).Perm
    (counts'.map fun counted => (identityPart counted.1, counted.2))

/-- The same observation, where records of counts have no order. -/
structure SameObservation (o o' : OrderMaskedObservation) : Prop where
  rest : o' = { o with
    drawPileCardIdCounts := o'.drawPileCardIdCounts
    discardPileCardIdCounts := o'.discardPileCardIdCounts
    exhaustPileCardIdCounts := o'.exhaustPileCardIdCounts }
  drawPile : SameCounts o.drawPileCardIdCounts o'.drawPileCardIdCounts
  discardPile : SameCounts o.discardPileCardIdCounts o'.discardPileCardIdCounts
  exhaustPile : SameCounts o.exhaustPileCardIdCounts o'.exhaustPileCardIdCounts

/-- The same candidates, from the same observation. -/
inductive SameResult : PipelineResult → PipelineResult → Prop
  | success (continuation : PipelineCandidateRef) (subBranches : List PipelineCandidateRef)
      (ranked pruned : List ScoredCandidate) {o o' : OrderMaskedObservation}
      (h : SameObservation o o') :
      SameResult (.success continuation subBranches ranked pruned o)
        (.success continuation subBranches ranked pruned o')
  | noViableCandidates (detail : String) (ranked : List ScoredCandidate)
      {o o' : OrderMaskedObservation} (h : SameObservation o o') :
      SameResult (.noViableCandidates detail ranked o) (.noViableCandidates detail ranked o')

variable {state state' : Fields}

/-- A member of the state is the same, or is a pile in another order. -/
theorem SamePileOrder.getField (h : SamePileOrder state state') (key : String) :
    SamePile (getField state key) (getField state' key) := by
  unfold Api.getField
  induction h with
  | nil => exact Or.inl rfl
  | @cons m m' rest rest' hm _ ih =>
      rcases m with ⟨k, v⟩
      rcases m' with ⟨k', v'⟩
      rcases hm with ⟨rfl, hvalue⟩
      simp only [Dict.lookupL]
      by_cases hkey : k = .text key
      · rw [if_pos hkey, if_pos hkey]
        rcases hvalue with heq | ⟨-, hpile⟩
        · exact Or.inl heq
        · exact hpile
      · rw [if_neg hkey, if_neg hkey]
        exact ih

/-- What is no pile is the same. -/
theorem SamePileOrder.getField_eq (h : SamePileOrder state state') {key : String}
    (hkey : key ∉ hiddenPileKeys) : Api.getField state key = Api.getField state' key := by
  unfold Api.getField
  induction h with
  | nil => rfl
  | @cons m m' rest rest' hm _ ih =>
      rcases m with ⟨k, v⟩
      rcases m' with ⟨k', v'⟩
      rcases hm with ⟨rfl, hvalue⟩
      simp only [Dict.lookupL]
      by_cases heq : k = .text key
      · rw [if_pos heq, if_pos heq]
        rcases hvalue with hsame | ⟨⟨name, hname, hk⟩, -⟩
        · exact congrArg (fun value => (some value).getD Json.null) hsame
        · -- A hidden pile has another name.
          rw [heq, PyStr.text.injEq] at hk
          exact absurd (hk ▸ hname) hkey
      · rw [if_neg heq, if_neg heq]
        exact ih

theorem SameCounts.refl (counts : Counts) : SameCounts counts counts := List.Perm.refl _

theorem SamePile.orEmpty {a b : Json} (h : SamePile a b) :
    SamePile (orElse a (.list [])) (orElse b (.list [])) := by
  rcases h with rfl | ⟨xs, ys, rfl, rfl, hperm⟩
  · exact Or.inl rfl
  · unfold Api.orElse
    rw [Api.truthy_perm hperm]
    split
    · exact Or.inr ⟨xs, ys, rfl, rfl, hperm⟩
    · exact Or.inl rfl

theorem SamePile.pyLen_eq {a b : Json} (h : SamePile a b) : pyLen a = pyLen b := by
  rcases h with rfl | ⟨xs, ys, rfl, rfl, hperm⟩
  · rfl
  · exact Api.pyLen_perm hperm

/-- A pile is counted alike in every order, or in none. -/
theorem SamePile.cardCounts_agree {a b : Json} (h : SamePile a b) (key : String) :
    Except.Agree SameCounts (cardCounts key a) (cardCounts key b) := by
  have hitems : Except.Agree List.Perm (Api.iterate (orElse a (.list [])))
      (Api.iterate (orElse b (.list []))) := by
    rcases h.orEmpty with heq | ⟨xs, ys, hxs, hys, hperm⟩
    · rw [heq]
      exact Except.Agree.refl List.Perm.refl _
    · rw [hxs, hys]
      exact Api.iterate_perm hperm
  unfold cardCounts
  refine hitems.bind fun xs ys hperm => ?_
  refine (Except.Agree.mapM_perm (countedValue key) hperm).bind fun values values' hvalues => ?_
  exact Except.Agree.pure (Tally.tally_keys_perm (hvalues.filterMap id))

/-- What is observed of two boards that differ in the order of their piles. -/
theorem buildOrderMaskedObservation_agree (h : SamePileOrder state state') :
    Except.Agree SameObservation (buildOrderMaskedObservation state)
      (buildOrderMaskedObservation state') := by
  have hdraw := (h.getField "drawPile").orEmpty
  have hdiscard := (h.getField "discardPile").orEmpty
  have hexhaust := (h.getField "exhaustPile").orEmpty
  have hplay := (h.getField "playPile").orEmpty
  unfold buildOrderMaskedObservation
  dsimp only
  rw [h.getField_eq (by decide : "hand" ∉ hiddenPileKeys),
    h.getField_eq (by decide : "pendingChoice" ∉ hiddenPileKeys),
    h.getField_eq (by decide : "enemies" ∉ hiddenPileKeys),
    h.getField_eq (by decide : "energy" ∉ hiddenPileKeys),
    hdraw.pyLen_eq, hdiscard.pyLen_eq, hexhaust.pyLen_eq, hplay.pyLen_eq]
  -- Up to the counts of the piles, both read the same.
  refine .bind_same _ fun enemies => .bind_same _ fun alive => .bind_same _ fun handSize => ?_
  refine .bind_same _ fun drawPileSize => .bind_same _ fun discardPileSize => ?_
  refine .bind_same _ fun exhaustPileSize => .bind_same _ fun playPileSize => ?_
  refine .bind_same _ fun playerEnergy => .bind_same _ fun handIds => ?_
  refine .bind_same _ fun handTypes => ?_
  refine (hdraw.cardCounts_agree "id").bind fun draw draw' hdrawCounts => ?_
  refine (hdiscard.cardCounts_agree "id").bind fun discard discard' hdiscardCounts => ?_
  refine (hexhaust.cardCounts_agree "id").bind fun exhaust exhaust' hexhaustCounts => ?_
  refine .bind_same _ fun choiceType => .bind_same _ fun minSelect => ?_
  refine .bind_same _ fun least => .bind_same _ fun maxSelect => .bind_same _ fun most => ?_
  refine .bind_same _ fun selectedCount => .bind_same _ fun selected => ?_
  exact ⟨rfl, hdrawCounts, hdiscardCounts, hexhaustCounts⟩

theorem cardFeatureById_eq (h : SamePileOrder state state') (cardId : Json) :
    cardFeatureById state cardId = cardFeatureById state' cardId := by
  unfold cardFeatureById
  rw [h.getField_eq (by decide : "hand" ∉ hiddenPileKeys),
    h.getField_eq (by decide : "pendingChoice" ∉ hiddenPileKeys)]

theorem choiceScopeFromCurrentResult_eq (h : SamePileOrder state state')
    (legalActions : List LegalActionRecord) :
    choiceScopeFromCurrentResult state legalActions =
      choiceScopeFromCurrentResult state' legalActions := by
  unfold choiceScopeFromCurrentResult isActionContinuationPendingChoiceOf
  rw [h.getField_eq (by decide : "pendingChoice" ∉ hiddenPileKeys)]

/-- The candidates are made from what is no pile. -/
theorem extractCandidates_eq {current : CurrentDecision}
    (h : SamePileOrder current.engineState state') :
    extractCandidates current = extractCandidates { current with engineState := state' } := by
  have hactions : ({ current with engineState := state' } : CurrentDecision).legalActions =
      current.legalActions := rfl
  unfold extractCandidates
  rw [hactions, choiceScopeFromCurrentResult_eq h]
  refine bind_congr fun choiceScope => ?_
  refine congrArg (fun f => List.mapM f current.legalActions.zipIdx) (funext fun pair => ?_)
  unfold extractCandidate
  simp only [cardFeatureById_eq h]

/-- No rule looks at the counts of a pile. -/
theorem SameObservation.evaluate_eq {o o' : OrderMaskedObservation} (h : SameObservation o o')
    (candidate : Candidate) : scoreCandidate o candidate = scoreCandidate o' candidate := by
  have heval : (evaluatorOf candidate.choiceKind).2 o candidate =
      (evaluatorOf candidate.choiceKind).2 o' candidate := by
    unfold evaluatorOf
    rw [h.rest]
    split <;> rfl
  have hscore : ∀ o : OrderMaskedObservation, scoreCandidate o candidate =
      (evaluatorOf candidate.choiceKind).2 o candidate >>= fun score =>
        .ok ⟨candidate, score, (evaluatorOf candidate.choiceKind).1⟩ := fun _ => rfl
  rw [hscore, hscore, heval]

theorem SameObservation.rankCandidates_eq {o o' : OrderMaskedObservation}
    (h : SameObservation o o') (candidates : List Candidate) :
    rankCandidates o candidates = rankCandidates o' candidates := by
  have hscore : scoreCandidate o = scoreCandidate o' := funext h.evaluate_eq
  unfold rankCandidates
  rw [hscore]

/-- The pipeline comes to the same result. -/
theorem buildCandidatePipelineResult_agree {current : CurrentDecision}
    (h : SamePileOrder current.engineState state') (width : Int) (scoreThreshold : Option String) :
    Except.Agree SameResult (buildCandidatePipelineResult current width scoreThreshold)
      (buildCandidatePipelineResult { current with engineState := state' } width
        scoreThreshold) := by
  unfold buildCandidatePipelineResult
  refine (buildOrderMaskedObservation_agree h).bind fun o o' ho => ?_
  rw [extractCandidates_eq h]
  refine .bind_same _ fun candidates => ?_
  rw [ho.rankCandidates_eq]
  refine .bind_same _ fun ranked => ?_
  dsimp only
  split
  · exact SameResult.noViableCandidates _ ranked ho
  · exact .bind_same _ fun refs => SameResult.success refs.1 refs.2 ranked _ ho

theorem buildCandidatePipelineResultForExplicitCandidates_agree {current : CurrentDecision}
    (h : SamePileOrder current.engineState state') (indices : List Int) :
    Except.Agree SameResult (buildCandidatePipelineResultForExplicitCandidates current indices)
      (buildCandidatePipelineResultForExplicitCandidates { current with engineState := state' }
        indices) := by
  unfold buildCandidatePipelineResultForExplicitCandidates
  split
  · trivial
  · refine (buildOrderMaskedObservation_agree h).bind fun o o' ho => ?_
    rw [extractCandidates_eq h]
    refine .bind_same _ fun candidates => .bind_same _ fun selected => ?_
    exact .bind_same _ fun refs => SameResult.success refs.1 refs.2 selected selected ho

end PileOrder

/-!
### Candidates and actions

Each candidate refers to one of the actions of the decision, by its index and its id.
-/

section Resolution

/-- The candidate was made from the legal action at its place. -/
def Candidate.RefersTo (candidate : Candidate) (legalActions : List LegalActionRecord) : Prop :=
  ∃ action, legalActions[candidate.legalActionIndex]? = some action ∧
    candidate.semanticAction = ⟨action.actionType, action.semanticKey⟩ ∧
    candidate.choiceKind = action.actionType ∧ candidate.label = action.label

/-- What is looked up is found, and is a legal action of the same kind and key. -/
def Resolvable (legalActions : List LegalActionRecord) (action : SemanticAction) : Prop :=
  ∃ found ∈ legalActions, action.resolve (legalActions.map LegalActionRecord.legal) =
      some found.legal ∧
    found.actionType = action.actionType ∧ found.semanticKey = action.semanticKey

/-- Every candidate of a result refers to a legal action, and what is handed on of it
    is resolved to one. -/
def PipelineResult.RefersTo (legalActions : List LegalActionRecord)
    (signature : DecisionSignature) : PipelineResult → Prop
  | .success continuation subBranches ranked pruned _ =>
      (∀ scored ∈ ranked ++ pruned, scored.candidate.RefersTo legalActions) ∧
      continuation :: subBranches = pruned.map (toPipelineRef signature) ∧
      ∀ ref ∈ continuation :: subBranches, ref.choiceKind = ref.semanticAction.actionType ∧
        Resolvable legalActions ref.semanticAction
  | .noViableCandidates _ ranked _ =>
      ∀ scored ∈ ranked, scored.candidate.RefersTo legalActions

/-- An extracted candidate refers to the action it was extracted from. -/
theorem extractCandidate_refersTo {state : Fields} {choiceScope : ChoiceScope} {index : Nat}
    {action : LegalActionRecord} : ∀ candidate,
    extractCandidate state choiceScope index action = .ok candidate →
      candidate.legalActionIndex = index ∧
      candidate.semanticAction = ⟨action.actionType, action.semanticKey⟩ ∧
      candidate.choiceKind = action.actionType ∧ candidate.label = action.label := by
  unfold extractCandidate
  refine Except.of_bind_ok fun cardId => Except.of_bind_ok fun cardFeature => ?_
  refine Except.of_bind_ok fun targetField => Except.of_bind_ok fun targetIndex => ?_
  refine Except.of_bind_ok fun enemyField => Except.of_bind_ok fun targetEnemyIndex => ?_
  refine Except.of_bind_ok fun cost => Except.of_bind_ok fun cardCost => ?_
  refine Except.of_bind_ok fun potionField => ?_
  refine Except.of_bind_ok fun potionSlot => Except.of_bind_ok fun cardType => ?_
  refine Except.of_bind_ok fun cardRarity => ?_
  rintro candidate hok
  cases hok
  exact ⟨rfl, rfl, rfl, rfl⟩

/-- Every candidate refers to a legal action. -/
theorem extractCandidates_refersTo {current : CurrentDecision} : ∀ candidates,
    extractCandidates current = .ok candidates →
      ∀ candidate ∈ candidates, candidate.RefersTo current.legalActions := by
  unfold extractCandidates
  refine Except.of_bind_ok fun choiceScope => ?_
  intro candidates hok candidate hmem
  rcases Except.exists_of_mem_mapM _ _ _ hok candidate hmem with ⟨⟨action, index⟩, hpair, heq⟩
  rcases extractCandidate_refersTo candidate heq with ⟨rfl, hsemantic, hkind, hlabel⟩
  exact ⟨action, List.mem_zipIdx_iff_getElem?.mp hpair, hsemantic, hkind, hlabel⟩

/-- So what it says of the action is found among them. -/
theorem Candidate.RefersTo.resolvable {candidate : Candidate}
    {legalActions : List LegalActionRecord} (h : candidate.RefersTo legalActions) :
    Resolvable legalActions candidate.semanticAction := by
  rcases h with ⟨action, haction, hsemantic, -, -⟩
  rw [hsemantic]
  -- The action itself would do, so the first one that does is found.
  have hmem : action ∈ legalActions := List.mem_of_getElem? haction
  have hsome : ((legalActions.map LegalActionRecord.legal).find? fun legal =>
      legal.actionType = action.actionType ∧ legal.semanticKey = action.semanticKey).isSome := by
    rw [List.find?_isSome]
    exact ⟨action.legal, List.mem_map_of_mem hmem, decide_eq_true ⟨rfl, rfl⟩⟩
  rcases Option.isSome_iff_exists.mp hsome with ⟨found, hfound⟩
  rcases List.mem_map.mp (List.mem_of_find?_eq_some hfound) with ⟨record, hrecord, rfl⟩
  have hsame := List.find?_some hfound
  rw [decide_eq_true_iff] at hsame
  exact ⟨record, hrecord, hfound, hsame.1, hsame.2⟩

/-- Ranking and scoring leave the candidates as they are. -/
theorem rankCandidates_refersTo {o : OrderMaskedObservation} {candidates : List Candidate}
    {legalActions : List LegalActionRecord}
    (h : ∀ candidate ∈ candidates, candidate.RefersTo legalActions)
    {ranked : List ScoredCandidate} (hok : rankCandidates o candidates = .ok ranked) :
    ∀ scored ∈ ranked, scored.candidate.RefersTo legalActions := by
  rcases (Except.bind_eq_ok _ _ _).mp hok with ⟨scored, hscored, heq⟩
  cases heq
  intro item hitem
  rcases Except.exists_of_mem_mapM _ _ _ hscored item (List.mem_mergeSort.mp hitem) with
    ⟨candidate, hmem, hscore⟩
  rcases (Except.bind_eq_ok _ _ _).mp hscore with ⟨score, -, hitem⟩
  cases hitem
  exact h candidate hmem

theorem mem_of_mem_pruneCandidates {candidates : List ScoredCandidate} {width : Int}
    {scoreThreshold : Option String} {scored : ScoredCandidate}
    (h : scored ∈ pruneCandidates candidates width scoreThreshold) : scored ∈ candidates := by
  unfold pruneCandidates at h
  split at h
  · cases h
  · exact List.mem_of_mem_filter (List.mem_of_mem_take h)

/-- What is split is handed on in order. -/
theorem refersTo_of_splitCandidates {legalActions : List LegalActionRecord}
    {signature : DecisionSignature} {ranked pruned : List ScoredCandidate}
    (hranked : ∀ scored ∈ ranked, scored.candidate.RefersTo legalActions)
    (hpruned : ∀ scored ∈ pruned, scored ∈ ranked) {o : OrderMaskedObservation}
    {refs : PipelineCandidateRef × List PipelineCandidateRef}
    (hsplit : splitCandidates pruned signature = .ok refs) :
    (PipelineResult.success refs.1 refs.2 ranked pruned o).RefersTo legalActions
      signature := by
  have hrefs : refs.1 :: refs.2 = pruned.map (toPipelineRef signature) := by
    cases pruned with
    | nil => cases hsplit
    | cons first rest =>
        cases hsplit
        rfl
  refine ⟨fun scored hmem => ?_, hrefs, fun ref hmem => ?_⟩
  · rcases List.mem_append.mp hmem with h | h
    · exact hranked scored h
    · exact hranked scored (hpruned scored h)
  · rw [hrefs] at hmem
    rcases List.mem_map.mp hmem with ⟨scored, hscored, rfl⟩
    have hrefers := hranked scored (hpruned scored hscored)
    refine ⟨?_, hrefers.resolvable⟩
    rcases hrefers with ⟨action, -, hsemantic, hkind, -⟩
    change scored.candidate.choiceKind = scored.candidate.semanticAction.actionType
    rw [hkind, hsemantic]

/-- What the pipeline hands on refers to actions of the decision. -/
theorem buildCandidatePipelineResult_refersTo {current : CurrentDecision} {width : Int}
    {scoreThreshold : Option String} : ∀ result,
    buildCandidatePipelineResult current width scoreThreshold = .ok result →
      result.RefersTo current.legalActions current.currentContextSignature := by
  unfold buildCandidatePipelineResult
  refine Except.of_bind_ok fun o => ?_
  intro result hok
  rcases (Except.bind_eq_ok _ _ _).mp hok with ⟨candidates, hcandidates, hok⟩
  rcases (Except.bind_eq_ok _ _ _).mp hok with ⟨ranked, hranked, hok⟩
  have hrefers := rankCandidates_refersTo
    (extractCandidates_refersTo candidates hcandidates) hranked
  dsimp only at hok
  split at hok
  · cases hok
    exact hrefers
  · rcases (Except.bind_eq_ok _ _ _).mp hok with ⟨refs, hsplit, hok⟩
    cases hok
    exact refersTo_of_splitCandidates hrefers (fun _ => mem_of_mem_pruneCandidates) hsplit

/-- And so with candidates that were asked for. -/
theorem buildCandidatePipelineResultForExplicitCandidates_refersTo {current : CurrentDecision}
    {indices : List Int} : ∀ result,
    buildCandidatePipelineResultForExplicitCandidates current indices = .ok result →
      result.RefersTo current.legalActions current.currentContextSignature := by
  unfold buildCandidatePipelineResultForExplicitCandidates
  intro result hok
  split at hok
  · cases hok
  · rcases (Except.bind_eq_ok _ _ _).mp hok with ⟨o, -, hok⟩
    rcases (Except.bind_eq_ok _ _ _).mp hok with ⟨candidates, hcandidates, hok⟩
    rcases (Except.bind_eq_ok _ _ _).mp hok with ⟨selected, hselected, hok⟩
    rcases (Except.bind_eq_ok _ _ _).mp hok with ⟨refs, hsplit, hok⟩
    cases hok
    refine refersTo_of_splitCandidates ?_ (fun _ hmem => hmem) hsplit
    intro scored hmem
    rcases Except.exists_of_mem_mapM _ _ _ hselected scored hmem with ⟨index, -, hselect⟩
    unfold selectCandidate at hselect
    split at hselect
    · rename_i candidate hfound
      cases hselect
      exact extractCandidates_refersTo candidates hcandidates candidate
        (List.mem_of_find?_eq_some hfound)
    · cases hselect

end Resolution

/-!
### The law

Both builders, on two states that differ in hidden piles.
-/

section BlindPipeline

/-- On two boards that differ in the order of their piles the pipeline answers with
    the same candidates in the same order, or raises on both. On every board each
    candidate refers to a legal action of the decision. -/
theorem candidates_blind_to_piles :
    (∀ (current : CurrentDecision) (state' : Fields),
      SamePileOrder current.engineState state' →
        (∀ width scoreThreshold, Except.Agree SameResult
          (buildCandidatePipelineResult current width scoreThreshold)
          (buildCandidatePipelineResult { current with engineState := state' } width
            scoreThreshold)) ∧
        ∀ indices, Except.Agree SameResult
          (buildCandidatePipelineResultForExplicitCandidates current indices)
          (buildCandidatePipelineResultForExplicitCandidates
            { current with engineState := state' } indices)) ∧
    ∀ (current : CurrentDecision) (result : PipelineResult),
      ((∃ width scoreThreshold,
          buildCandidatePipelineResult current width scoreThreshold = .ok result) ∨
        ∃ indices,
          buildCandidatePipelineResultForExplicitCandidates current indices = .ok result) →
      result.RefersTo current.legalActions current.currentContextSignature := by
  refine ⟨fun current state' h => ⟨?_, ?_⟩, fun current result => ?_⟩
  · exact buildCandidatePipelineResult_agree h
  · exact buildCandidatePipelineResultForExplicitCandidates_agree h
  · rintro (⟨width, scoreThreshold, hok⟩ | ⟨indices, hok⟩)
    · exact buildCandidatePipelineResult_refersTo result hok
    · exact buildCandidatePipelineResultForExplicitCandidates_refersTo result hok

/-- A card of a pile. -/
private def pileCard (id : String) : Json := .obj [Api.member "id" (.str (.text id))]

/-- A board with one card in hand and two in the draw pile. -/
private def twoPile (first second : String) : Fields :=
  [Api.member "hand" (.list [pileCard "STRIKE"]),
    Api.member "drawPile" (.list [pileCard first, pileCard second])]

/-- A decision with one card to play. -/
private def strikeDecision : CurrentDecision :=
  { engineState := twoPile "BASH" "DEFEND"
    cachedLegalActions := some [⟨0, "card", "Strike", true,
      .obj [Api.member "cardId" (.str (.text "STRIKE")), Api.member "cost" (.int 1)], "STRIKE/0"⟩]
    currentContextSignature := ⟨none, 0, none, ⟨"", ""⟩, 0, "", none, none, .stable, none, none,
      none, stable_pendingOnly⟩ }

/-- Turning the draw pile around changes nothing for either builder, and the candidate
    of each is legal. -/
theorem candidates_blind_to_piles_two_cards :
    (Except.Agree SameResult (buildCandidatePipelineResult strikeDecision 1 none)
        (buildCandidatePipelineResult
          { strikeDecision with engineState := twoPile "DEFEND" "BASH" } 1 none) ∧
      ∃ result, buildCandidatePipelineResult strikeDecision 1 none = .ok result ∧
        result.RefersTo strikeDecision.legalActions strikeDecision.currentContextSignature) ∧
    Except.Agree SameResult (buildCandidatePipelineResultForExplicitCandidates strikeDecision [0])
      (buildCandidatePipelineResultForExplicitCandidates
        { strikeDecision with engineState := twoPile "DEFEND" "BASH" } [0]) ∧
    ∃ result, buildCandidatePipelineResultForExplicitCandidates strikeDecision [0] = .ok result ∧
      result.RefersTo strikeDecision.legalActions strikeDecision.currentContextSignature := by
  have hpiles : SamePileOrder strikeDecision.engineState (twoPile "DEFEND" "BASH") := by
    refine .cons ⟨rfl, .inl rfl⟩ (.cons ⟨rfl, .inr ⟨⟨"drawPile", by decide, rfl⟩, ?_⟩⟩ .nil)
    exact .inr ⟨_, _, rfl, rfl, .swap (pileCard "DEFEND") (pileCard "BASH") []⟩
  have hscored : (buildCandidatePipelineResult strikeDecision 1 none).isOk = true := by
    decide +kernel
  have hnamed : (buildCandidatePipelineResultForExplicitCandidates strikeDecision [0]).isOk
    = true := by
    decide +kernel
  rcases candidates_blind_to_piles with ⟨hblind, hlegal⟩
  -- The decision is made a variable, so that no score is computed below.
  generalize strikeDecision = decision at hpiles hscored hnamed ⊢
  refine ⟨⟨(hblind decision _ hpiles).1 1 none, ?_⟩, (hblind decision _ hpiles).2 [0], ?_⟩
  · rcases hresult : buildCandidatePipelineResult decision 1 none with exc | result
    · rw [hresult] at hscored
      cases hscored
    · exact ⟨result, rfl, hlegal decision result (.inl ⟨1, none, hresult⟩)⟩
  · rcases hresult : buildCandidatePipelineResultForExplicitCandidates decision [0] with
      exc | result
    · rw [hresult] at hnamed
      cases hnamed
    · exact ⟨result, rfl, hlegal decision result (.inr ⟨[0], hresult⟩)⟩

end BlindPipeline

end Combat

end STS2RL
