import STS2RL.Core.Json
import Mathlib.Data.String.Basic

/-!
# Decision Contexts

The records every part of combat search speaks in: what an action means, what a
decision looked like, and how a decision can be reached again.

A `DecisionSignature` describes one arrival at a decision and never the board.
The fields that belong to a pending choice are present only when the boundary is
pending; the structure carries the proof, as the source's constructor raises
otherwise. Signatures are compared by `diffForReplay`, which leaves out what no
restore reproduces: the session id, the action id, and an unclassified choice
kind.

A `DecisionContext` is the search's record of where a branch is: a root to
restore, and the actions to replay from it. The root kind decides how it is
restored and what may be assumed of it (`SearchRoot`).

The model is over a type `κ` of captured snapshots and a type `β` of boards.
What a snapshot and a board hold is the emulator's business.

## Main definitions

* `BattleState`: What a session returns for one decision.
* `DecisionSignature`, `diffForReplay`: Arrivals, and how they are compared.
* `ReplayPrefixEntry`: One recorded action and the arrival it led to.
* `DecisionContext`: A root and the actions from it to a decision.

## Theorems

* `matchesForReplay_refl`: An arrival matches itself.
* `matchesForReplay_iff`: What two matching arrivals agree on.
-/

namespace STS2RL

namespace Combat

/-- `SemanticAction`. -/
structure SemanticAction where
  actionType : String
  semanticKey : String
  deriving DecidableEq, Repr

/-- One legal action of a decision. The action id means something only at the
    decision it was issued for. -/
structure LegalAction where
  actionId : Int
  actionType : String
  semanticKey : String := ""
  targetIndex : Option Int := none
  enemyIndex : Option Int := none
  deriving DecidableEq, Repr

/-- `SemanticAction.resolve`. -/
def SemanticAction.resolve (action : SemanticAction) (legalActions : List LegalAction) :
    Option LegalAction :=
  legalActions.find? fun legal =>
    legal.actionType = action.actionType ∧ legal.semanticKey = action.semanticKey

/-- `Boundary`. -/
inductive Boundary where
  | stable
  | pending
  | terminal
  | fault
  deriving DecidableEq, Repr

/-- `ChoiceScope`. -/
inductive ChoiceScope where
  | topLevel
  | actionContinuation
  deriving DecidableEq, Repr

/-- `DecisionFrame`. -/
structure DecisionFrame where
  combatSessionId : Option String
  stepIndex : Int
  continuationStepIndex : Option Int := none
  deriving DecidableEq, Repr

/-- The part of `pendingChoice` that the search reads. -/
structure PendingChoice where
  choiceType : Option String
  scope : Option String := none
  scenarioRestorable : Option Bool := none
  deriving DecidableEq, Repr

/-- What a session returns for one decision. -/
structure BattleState (β : Type) where
  board : β
  isTerminal : Bool
  pendingChoice : Option PendingChoice
  cachedLegalActions : Option (List LegalAction)
  decisionFrame : Option DecisionFrame
  deriving DecidableEq, Repr

/-- A choice in the middle of an action. -/
def isActionContinuationPendingChoice (pending : PendingChoice) : Bool :=
  pending.scope == some "ActionContinuation" || pending.scenarioRestorable == some false

variable {κ β : Type}

/-- `boundary_of_battle_state`. It never gives `fault`. -/
def boundaryOfBattleState (state : BattleState β) : Boundary :=
  if state.isTerminal then .terminal
  else if state.pendingChoice.isSome then .pending
  else .stable

/-- `_cached_legal_actions or []`. -/
def BattleState.legalActions (state : BattleState β) : List LegalAction :=
  state.cachedLegalActions.getD []

/-- A semantic key and how many of the candidates have it. -/
abbrev CandidateCount := (String × String) × Nat

/-- Count the candidates by semantic key and order the counts by the key. -/
def candidateMultiset (legalActions : List LegalAction) : List CandidateCount :=
  let keys := legalActions.map fun legal => (legal.actionType, legal.semanticKey)
  (keys.dedup.map fun key => (key, keys.count key)).mergeSort fun a b =>
    decide (a.1.1 < b.1.1 ∨ a.1.1 = b.1.1 ∧ a.1.2 ≤ b.1.2)

/-- What is recorded of one arrival at a decision. -/
structure DecisionSignature where
  combatSessionId : Option String
  stepIndex : Int
  continuationStepIndex : Option Int
  semanticAction : SemanticAction
  resolvedActionId : Int
  resolvedSemanticKey : String
  resolvedTargetIndex : Option Int
  resolvedTargetSlotIndex : Option Int
  boundary : Boundary
  choiceScope : Option ChoiceScope := none
  choiceKind : Option String := none
  candidateSemanticKeys : Option (List CandidateCount) := none
  pendingOnly : boundary ≠ .pending →
    choiceScope = none ∧ choiceKind = none ∧ candidateSemanticKeys = none
  deriving DecidableEq

/-- A decision between actions has nothing of a choice. -/
theorem stable_pendingOnly : Boundary.stable ≠ .pending → (none : Option ChoiceScope) = none ∧
    (none : Option String) = none ∧ (none : Option (List CandidateCount)) = none :=
  fun _ => ⟨rfl, rfl, rfl⟩

namespace DecisionSignature

/-- `DecisionSignature.from_battle_state`. -/
def fromBattleState (state : BattleState β) (semanticAction : SemanticAction)
    (resolvedAction : LegalAction) (targetIndex targetEnemyIndex : Option Int) :
    DecisionSignature :=
  let boundary := boundaryOfBattleState state
  { combatSessionId := state.decisionFrame.bind (·.combatSessionId)
    stepIndex := (state.decisionFrame.map (·.stepIndex)).getD (-1)
    continuationStepIndex := state.decisionFrame.bind (·.continuationStepIndex)
    semanticAction
    resolvedActionId := resolvedAction.actionId
    resolvedSemanticKey := resolvedAction.semanticKey
    resolvedTargetIndex := targetIndex
    resolvedTargetSlotIndex := targetEnemyIndex
    boundary
    choiceScope :=
      if boundary = .pending then
        state.pendingChoice.map fun pending =>
          if isActionContinuationPendingChoice pending then .actionContinuation else .topLevel
      else none
    choiceKind := if boundary = .pending then state.pendingChoice.bind (·.choiceType) else none
    candidateSemanticKeys :=
      if boundary = .pending then some (candidateMultiset state.legalActions) else none
    pendingOnly := fun h => ⟨if_neg h, if_neg h, if_neg h⟩ }

/-- The emulator's kind for a choice it has no name for. -/
def choiceKindUnclassified : String := "Unsupported"

/-- Whether two choice kinds differ in a way that means something. -/
def choiceKindDiffers (a b : Option String) : Bool :=
  a ≠ b ∧ a ≠ some choiceKindUnclassified ∧ b ≠ some choiceKindUnclassified

/-- `diff_for_replay`: the fields in which two arrivals differ, leaving out what
    no restore reproduces. -/
def diffForReplay (a b : DecisionSignature) : List String :=
  [("step_index", decide (a.stepIndex ≠ b.stepIndex)),
    ("continuation_step_index", decide (a.continuationStepIndex ≠ b.continuationStepIndex)),
    ("semantic_action", decide (a.semanticAction ≠ b.semanticAction)),
    ("resolved_semantic_key", decide (a.resolvedSemanticKey ≠ b.resolvedSemanticKey)),
    ("resolved_target_index", decide (a.resolvedTargetIndex ≠ b.resolvedTargetIndex)),
    ("resolved_target_slot_index",
      decide (a.resolvedTargetSlotIndex ≠ b.resolvedTargetSlotIndex)),
    ("boundary", decide (a.boundary ≠ b.boundary)),
    ("choice_scope", decide (a.choiceScope ≠ b.choiceScope)),
    ("choice_kind", choiceKindDiffers a.choiceKind b.choiceKind),
    ("candidate_semantic_keys",
      decide (a.candidateSemanticKeys ≠ b.candidateSemanticKeys))].filterMap
    fun field => if field.2 then some field.1 else none

/-- `matches_for_replay`. -/
def matchesForReplay (a b : DecisionSignature) : Bool := (diffForReplay a b).isEmpty

theorem matchesForReplay_iff (a b : DecisionSignature) :
    matchesForReplay a b = true ↔
      a.stepIndex = b.stepIndex ∧ a.continuationStepIndex = b.continuationStepIndex ∧
      a.semanticAction = b.semanticAction ∧ a.resolvedSemanticKey = b.resolvedSemanticKey ∧
      a.resolvedTargetIndex = b.resolvedTargetIndex ∧
      a.resolvedTargetSlotIndex = b.resolvedTargetSlotIndex ∧ a.boundary = b.boundary ∧
      a.choiceScope = b.choiceScope ∧ choiceKindDiffers a.choiceKind b.choiceKind = false ∧
      a.candidateSemanticKeys = b.candidateSemanticKeys := by
  unfold matchesForReplay diffForReplay
  rw [List.isEmpty_iff, List.filterMap_eq_nil_iff]
  simp only [List.mem_cons, List.not_mem_nil, or_false, forall_eq_or_imp, forall_eq,
    ite_eq_right_iff, reduceCtorEq, imp_false, Bool.not_eq_true, decide_eq_false_iff_not,
    ne_eq, not_not]

/-- An arrival matches itself. -/
theorem matchesForReplay_refl (a : DecisionSignature) : matchesForReplay a a = true := by
  rw [matchesForReplay_iff]
  refine ⟨rfl, rfl, rfl, rfl, rfl, rfl, rfl, rfl, ?_, rfl⟩
  simp [choiceKindDiffers]

theorem matchesForReplay_comm (a b : DecisionSignature) :
    matchesForReplay a b = matchesForReplay b a := by
  have hkind : choiceKindDiffers a.choiceKind b.choiceKind =
      choiceKindDiffers b.choiceKind a.choiceKind := by
    unfold choiceKindDiffers
    simp only [ne_eq, eq_comm (a := a.choiceKind) (b := b.choiceKind), decide_eq_decide]
    tauto
  rw [Bool.eq_iff_iff, matchesForReplay_iff, matchesForReplay_iff, hkind]
  simp only [eq_comm]

end DecisionSignature

/-- The state of a card that a player can see and that decides its behaviour. -/
structure ObservableCardKey where
  cardId : String
  type : String
  rarity : String
  cost : Int
  targetType : String
  upgraded : Bool
  upgradeLevel : Int
  tinkerTimeType : Option String
  tinkerTimeRider : Option String
  enchantment : Option (String × Int × String)
  deriving DecidableEq, Repr

/-- Which card was seen at which position of the root's draw pile. -/
abbrev VisibleDrawConstraints := List (Nat × ObservableCardKey)

/-- One committed action and the arrival it led to. -/
structure ReplayPrefixEntry where
  semanticAction : SemanticAction
  expectedSignature : DecisionSignature
  targetIndex : Option Int := none
  targetEnemyIndex : Option Int := none
  visibleDrawConstraints : VisibleDrawConstraints := []
  visibleDrawTrackingBlocked : Bool := false
  visibleDrawTrackingError : Option String := none
  deriving DecidableEq

/-- A root that is rebuilt from the scenario of the combat. -/
structure CombatStartReplayRoot where
  scenarioSpec : Json
  deriving DecidableEq

/-- A root that is reached by entering the room again. -/
structure RoomEntryReplayRoot where
  mapSnapshot : String
  roomId : Int
  deriving DecidableEq

/-- What a context is replayed from: a captured snapshot, a scenario to start, or
    a map from which to enter a room. -/
inductive SearchRoot (κ : Type) where
  | snapshot (captured : κ)
  | combatStart (root : CombatStartReplayRoot)
  | roomEntry (root : RoomEntryReplayRoot)
  deriving DecidableEq

namespace SearchRoot

/-- A root that is rebuilt from a scenario. -/
def isCombatStart : SearchRoot κ → Bool
  | combatStart _ => true
  | snapshot _ => false
  | roomEntry _ => false

/-- `identity_payload`: the content a root is identified by. `canonical` is the
    content of a snapshot without its volatile metadata. -/
def identityPayload (canonical : κ → Json) : SearchRoot κ → Json
  | snapshot captured => canonical captured
  | combatStart root => .obj [(.text "scenario_spec", root.scenarioSpec)]
  | roomEntry root =>
      .obj [(.text "map_snapshot", .str root.mapSnapshot), (.text "room_id", .int root.roomId)]

end SearchRoot

/-- The search's record of where a branch is. -/
structure DecisionContext (κ β : Type) where
  rootSnapshot : SearchRoot κ
  replayPrefix : List ReplayPrefixEntry
  planPath : List ReplayPrefixEntry
  currentDecisionResult : BattleState β
  currentContextSignature : DecisionSignature
  searchHypothesisId : Option String := none
  deriving DecidableEq

/-- A context with nothing replayed yet: `from_main_stable_capture`,
    `from_combat_start_pending` and `from_room_entry_pending`, which differ in
    the root they are given. -/
def DecisionContext.fromRoot (root : SearchRoot κ) (current : BattleState β)
    (signature : DecisionSignature) : DecisionContext κ β :=
  { rootSnapshot := root
    replayPrefix := []
    planPath := []
    currentDecisionResult := current
    currentContextSignature := signature }

end Combat

end STS2RL
